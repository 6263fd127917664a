import Mathlib.Order.Bounds.Basic
import VSyntax.Proofs.Delimiters.Regions

/-!
# The scanner under a bound

The search for openings and the detector of regions read a text before a bound, each with a test of
its own for what opens. They agree: the search ends at the least offset where the detector finds
something (`nextOpening_least`), and what the detector finds ends later than it begins and by the
bound, so that a scan which goes on there comes further.

`regionAt_under_bound` compares the detector under a bound with the detector in the whole text, where
the bound leaves room for an opener of comments. Both find something or neither does, and the bound
cuts off what is found, with one exception: a comment whose terminator stands across the bound
(`TerminatorAcross`) goes on up to the bound, over the front of its terminator.
-/
namespace VSyntax.Delimiters

variable {d : Delimiters} {t : Text} {pos stop i close : Nat} {category : Category}

/-! ## The search and the detector -/

/-- The detector finds nothing exactly where nothing opens under the bound. -/
theorem regionAt_eq_none_iff (hpos : pos < stop) (hstop : stop ≤ t.size) :
    d.regionAt t pos stop = .ok none ↔ ¬ d.OpensBy t stop pos := by
  constructor
  · intro hnone hopens
    obtain ⟨close, category, hfound, -⟩ := regionAt_of_opensBy hopens hpos hstop
    rw [hnone] at hfound
    cases hfound
  · exact fun hquiet => regionAt_of_not_opensBy hquiet (Nat.lt_of_lt_of_le hpos hstop)

/-- Before its bound the detector answers, and a region that it finds ends later than it begins and by
the bound. -/
theorem regionAt_cases (hpos : pos < stop) (hstop : stop ≤ t.size) :
    d.regionAt t pos stop = .ok none ∨
      ∃ close category, d.regionAt t pos stop = .ok (some (close, category)) ∧
        pos < close ∧ close ≤ stop := by
  by_cases h : d.OpensBy t stop pos
  · obtain ⟨close, category, hfound, hlater, hby, -⟩ := regionAt_of_opensBy h hpos hstop
    exact .inr ⟨close, category, hfound, hlater, hby⟩
  · exact .inl ((regionAt_eq_none_iff hpos hstop).mpr h)

/-- Where the detector finds a region, something opens under the bound. -/
theorem opensBy_of_regionAt {region : Nat × Category} (hpos : pos < stop) (hstop : stop ≤ t.size)
    (hfound : d.regionAt t pos stop = .ok (some region)) : d.OpensBy t stop pos := by
  apply Classical.byContradiction
  intro hquiet
  rw [(regionAt_eq_none_iff hpos hstop).mpr hquiet] at hfound
  cases hfound

/-- The offsets from `pos` on and before `stop` at which the detector finds a comment or string. -/
def openings (d : Delimiters) (t : Text) (pos stop : Nat) : Set Nat :=
  {i | pos ≤ i ∧ i < stop ∧ ∃ region, d.regionAt t i stop = .ok (some region)}

theorem mem_openings (hstop : stop ≤ t.size) :
    i ∈ d.openings t pos stop ↔ pos ≤ i ∧ i < stop ∧ d.OpensBy t stop i := by
  constructor
  · rintro ⟨hpos, hlt, region, hfound⟩
    exact ⟨hpos, hlt, opensBy_of_regionAt hlt hstop hfound⟩
  · rintro ⟨hpos, hlt, hopens⟩
    obtain ⟨close, category, hfound, -⟩ := regionAt_of_opensBy hopens hlt hstop
    exact ⟨hpos, hlt, _, hfound⟩

/-- **The search for openings ends at the least offset where the detector finds a region**, or at the
bound if there is none. The detector answers at every offset before the bound, and a region that it
finds ends later than it begins and by the bound. -/
theorem nextOpening_least (hpos : pos ≤ stop) (hstop : stop ≤ t.size) :
    ∃ o, d.nextOpening t pos stop = .ok o ∧
      (IsLeast (d.openings t pos stop) o ∨ d.openings t pos stop = ∅ ∧ o = stop) ∧
      ∀ i, i < stop → d.regionAt t i stop = .ok none ∨
        ∃ close category, d.regionAt t i stop = .ok (some (close, category)) ∧
          i < close ∧ close ≤ stop := by
  obtain ⟨o, hrun, hle, hend, hquiet, hopens⟩ := nextOpening_spec (d := d) hpos hstop
  refine ⟨o, hrun, ?_, fun i hi => regionAt_cases hi hstop⟩
  rcases Nat.eq_or_lt_of_le hend with rfl | hlt
  · refine .inr ⟨Set.eq_empty_of_forall_notMem fun i hi => ?_, rfl⟩
    obtain ⟨hge, hlt, hopen⟩ := (mem_openings hstop).mp hi
    exact hquiet i hge hlt hopen
  · refine .inl ⟨(mem_openings hstop).mpr ⟨hle, hlt, hopens hlt⟩, fun i hi => ?_⟩
    obtain ⟨hge, -, hopen⟩ := (mem_openings hstop).mp hi
    exact Nat.le_of_not_lt fun hlt => hquiet i hge hlt hopen

/-- Marks of which the slash is each one: it delimits strings, opens and ends comments, and escapes. -/
def slashes : Delimiters :=
  { standard with
    strings := ['/']
    commentTerminator := ['/']
    escape := ['/']
    terminator_ne := by decide
    strings_not_word := List.find?_eq_none.mp (by decide) }

/-- The theorem holds where an escape character at the end of the text leads the search for the
closing quote past it. -/
theorem nextOpening_least_escape :
    0 ≤ 4 ∧ 4 ≤ (Text.ofString "a/b/").size ∧
      slashes.nextOpening (Text.ofString "a/b/") 0 4 = .ok 1 ∧
      IsLeast (slashes.openings (Text.ofString "a/b/") 0 4) 1 ∧
      slashes.regionAt (Text.ofString "a/b/") 1 4 = .ok (some (4, .string)) ∧ 1 < 4 ∧ 4 ≤ 4 := by
  have hsize : 4 ≤ (Text.ofString "a/b/").size := by decide
  have hnext : slashes.nextOpening (Text.ofString "a/b/") 0 4 = .ok 1 := by rfl
  have hregion : slashes.regionAt (Text.ofString "a/b/") 1 4 = .ok (some (4, .string)) := by rfl
  obtain ⟨o, hrun, hleast, hregions⟩ :=
    nextOpening_least (d := slashes) (Nat.zero_le 4) hsize
  obtain rfl : 1 = o := Except.ok.inj (hnext.symm.trans hrun)
  refine ⟨Nat.zero_le 4, hsize, hnext, hleast.resolve_right fun h => absurd h.2 (by decide),
    hregion, ?_⟩
  rcases hregions 1 (by decide) with hnone | ⟨close, category, hfound, hlater, hby⟩
  · rw [hregion] at hnone
    cases hnone
  · rw [hregion] at hfound
    cases hfound
    exact ⟨hlater, hby⟩

/-! ## The bound and the whole text -/

section Room

variable (hroom : pos + d.commentOpener.length ≤ stop) (hstop : stop ≤ t.size)

include hroom

theorem lt_of_room : pos < stop := by
  have hopener := List.length_pos_iff.mpr d.opener_ne
  omega

include hstop

/-- A bound that leaves room for an opener does not change whether one stands there. -/
theorem startsAt_of_room :
    t.startsAt d.commentOpener pos stop = t.startsAt d.commentOpener pos t.size := by
  rw [Bool.eq_iff_iff, Text.startsAt_iff_whole d.opener_ne hstop]
  exact and_iff_left hroom

theorem regionAt_eq_none_of_room :
    d.regionAt t pos stop = .ok none ↔ d.regionAt t pos t.size = .ok none := by
  have hpos := lt_of_room hroom
  rw [regionAt_eq_none_iff hpos hstop,
    regionAt_eq_none_iff (Nat.lt_of_lt_of_le hpos hstop) (Nat.le_refl _), OpensBy, OpensBy,
    startsAt_of_room hroom hstop]

end Room

/-- The comment that opens at `pos` ends before `stop`, but its terminator reaches over `stop`. -/
def TerminatorAcross (d : Delimiters) (t : Text) (pos stop : Nat) : Prop :=
  ∃ close, d.IsComment t pos close ∧ close < stop ∧ stop < close + d.commentTerminator.length

theorem terminatorAcross_iff (h : d.Opens t pos)
    (hrun : d.regionAt t pos t.size = .ok (some (close, category))) :
    d.TerminatorAcross t pos stop ↔
      category = .comment ∧ close < stop ∧ stop < close + d.commentTerminator.length := by
  constructor
  · rintro ⟨close', hcomment, hlt, hover⟩
    rw [hcomment.regionAt_eq] at hrun
    cases hrun
    exact ⟨rfl, hlt, hover⟩
  · rintro ⟨rfl, hlt, hover⟩
    rcases isRegion_of_regionAt h hrun with ⟨-, hcomment⟩ | ⟨hcat, -⟩
    · exact ⟨close, hcomment, hlt, hover⟩
    · cases hcat

/-- **A bound that leaves room for an opener cuts off what the detector finds in the whole text**,
unless the terminator of a comment stands across the bound: then the comment goes on up to the bound.
The detector answers in the whole text, and with nothing exactly if it does so under the bound. -/
theorem regionAt_under_bound (hroom : pos + d.commentOpener.length ≤ stop) (hstop : stop ≤ t.size) :
    (∃ answer, d.regionAt t pos t.size = .ok answer) ∧
      (d.regionAt t pos stop = .ok none ↔ d.regionAt t pos t.size = .ok none) ∧
      ∀ close category, d.regionAt t pos t.size = .ok (some (close, category)) →
        (¬ d.TerminatorAcross t pos stop →
          d.regionAt t pos stop = .ok (some (min stop close, category))) ∧
        (d.TerminatorAcross t pos stop →
          close < stop ∧ d.regionAt t pos stop = .ok (some (stop, category))) := by
  have hpos := lt_of_room hroom
  have hsize : pos < t.size := Nat.lt_of_lt_of_le hpos hstop
  refine ⟨?_, regionAt_eq_none_of_room hroom hstop, fun close category hrun => ?_⟩
  · rcases regionAt_cases (d := d) hsize (Nat.le_refl _) with hnone | ⟨close, category, hfound, -⟩
    · exact ⟨_, hnone⟩
    · exact ⟨_, hfound⟩
  · have hopens : d.Opens t pos := opensBy_of_regionAt hsize (Nat.le_refl _) hrun
    have hcut := regionAt_bounded hopens (startsAt_of_room hroom hstop) hpos hstop hrun
    have hacross : d.TerminatorAcross t pos stop ↔ category = .comment ∧ close < stop ∧
        stop < close + d.commentTerminator.length := terminatorAcross_iff hopens hrun
    refine ⟨fun hnot => ?_, fun h => ?_⟩
    · rw [hcut]
      split
      · next hover =>
        have hlate : stop ≤ close := Nat.le_of_not_lt fun hlt =>
          hnot (hacross.mpr ⟨hover.1, hlt, hover.2⟩)
        rw [Nat.min_eq_left hlate]
      · rw [Nat.min_comm]
    · obtain ⟨hcomment, hlt, hover⟩ := hacross.mp h
      exact ⟨hlt, by rw [hcut, if_pos ⟨hcomment, hover⟩]⟩

/-- Marks of comments that go from a hash sign up to a carriage return with a line feed. -/
def hashLines : Delimiters :=
  { standard with
    commentOpener := ['#']
    commentTerminator := ['\r', '\n']
    opener_ne := by decide
    terminator_ne := by decide }

/-- The theorem holds of a string with the bound inside an escape pair, and of a comment with the bound
inside the terminator. -/
theorem regionAt_under_bound_inside :
    (0 + standard.commentOpener.length ≤ 3 ∧ 3 ≤ (Text.ofString "'a\\''b").size ∧
      standard.regionAt (Text.ofString "'a\\''b") 0 6 = .ok (some (5, .string)) ∧
      ¬ standard.TerminatorAcross (Text.ofString "'a\\''b") 0 3 ∧
      standard.regionAt (Text.ofString "'a\\''b") 0 3 = .ok (some (min 3 5, .string))) ∧
    0 + hashLines.commentOpener.length ≤ 4 ∧ 4 ≤ (Text.ofString "# x\r\n").size ∧
      hashLines.regionAt (Text.ofString "# x\r\n") 0 5 = .ok (some (3, .comment)) ∧
      hashLines.TerminatorAcross (Text.ofString "# x\r\n") 0 4 ∧
      3 < 4 ∧ hashLines.regionAt (Text.ofString "# x\r\n") 0 4 = .ok (some (4, .comment)) := by
  constructor
  · have hroom : 0 + standard.commentOpener.length ≤ 3 := by decide
    have hstop : 3 ≤ (Text.ofString "'a\\''b").size := by decide
    have hwhole : standard.regionAt (Text.ofString "'a\\''b") 0 6 = .ok (some (5, .string)) := by
      rfl
    have hacross : ¬ standard.TerminatorAcross (Text.ofString "'a\\''b") 0 3 := by
      rintro ⟨close, hcomment, -⟩
      exact absurd hcomment.opens (by decide)
    obtain ⟨-, -, hcut⟩ := regionAt_under_bound hroom hstop
    exact ⟨hroom, hstop, hwhole, hacross, (hcut 5 .string hwhole).1 hacross⟩
  · have hroom : 0 + hashLines.commentOpener.length ≤ 4 := by decide
    have hstop : 4 ≤ (Text.ofString "# x\r\n").size := by decide
    have hwhole : hashLines.regionAt (Text.ofString "# x\r\n") 0 5 = .ok (some (3, .comment)) := by
      rfl
    have hacross : hashLines.TerminatorAcross (Text.ofString "# x\r\n") 0 4 :=
      (terminatorAcross_iff (.inl rfl) hwhole).mpr ⟨rfl, by decide, by decide⟩
    obtain ⟨-, -, hcut⟩ := regionAt_under_bound hroom hstop
    exact ⟨hroom, hstop, hwhole, hacross, (hcut 3 .comment hwhole).2 hacross⟩

/-- A bound inside the terminator of a comment does not cut the comment off there: it ends at 3 in the
whole text and at 4 under the bound 4. So the comment in the spans of the text up to 4 holds the
carriage return, which is no part of the comment in the spans of the whole text. -/
theorem regionAt_over_terminator :
    0 + hashLines.commentOpener.length ≤ 4 ∧ 4 ≤ (Text.ofString "# x\r\n").size ∧
      hashLines.regionAt (Text.ofString "# x\r\n") 0 5 = .ok (some (3, .comment)) ∧
      hashLines.regionAt (Text.ofString "# x\r\n") 0 4 = .ok (some (4, .comment)) ∧ min 4 3 ≠ 4 ∧
      classify [] hashLines (Text.ofString "# x\r\n") none = .ok [⟨0, 3, .comment⟩] ∧
      classify [] hashLines (Text.ofString "# x\r\n") (some ⟨(0 : Nat), (4 : Nat)⟩) =
        .ok [⟨0, 4, .comment⟩] :=
  ⟨by decide, by decide, rfl, rfl, by decide, rfl, rfl⟩

end VSyntax.Delimiters
