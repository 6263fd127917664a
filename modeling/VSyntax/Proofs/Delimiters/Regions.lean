import VSyntax.Proofs.Delimiters.Openings

/-!
# Comments and strings

Where a comment or a string ends, said of the whole text. A comment ends before the first terminator
after its opener (`IsComment`). The inside of a string is read in units (`Body`): an escape
character with the character after it, or one character that is neither an escape nor the quote; the
string ends just after the quote that follows such an inside (`IsString`). A region that is never
closed ends with the text. Each region that opens has one end only (`IsComment.unique`,
`IsString.unique`).

`regionAt_whole` says that the scanner finds exactly these, and `regionAt_bounded` what it finds of
them under a bound: the region cut off there, except that a comment goes on up to the bound if its
terminator does not end by it. `regionAt_cut` says that the bound which the scanner uses for a region
of the text only cuts off, provided that the terminator of comments is no longer than the opener: the
scanner reads past the region by an opener's length, and not by more.
-/
namespace VSyntax.Delimiters

variable {d : Delimiters} {t : Text} {quote : Char} {pos stop : Nat}

/-! ## Ends of regions -/

/-- The text from `o` up to `s` is a comment. -/
structure IsComment (d : Delimiters) (t : Text) (o s : Nat) : Prop where
  opens : t.startsAt d.commentOpener o t.size = true
  start_le : o + d.commentOpener.length ≤ s
  le_size : s ≤ t.size
  unended : ∀ i, o + d.commentOpener.length ≤ i → i < s →
    ¬ t.startsAt d.commentTerminator i t.size = true
  ends : t.startsAt d.commentTerminator s t.size = true ∨ s = t.size

/-- The inside of a string that `quote` closes. -/
inductive Body (d : Delimiters) (quote : Char) : List Char → Prop
  /-- Nothing. -/
  | nil : Body d quote []
  /-- An escape character with the character after it. -/
  | pair {e c : Char} {rest : List Char} (he : d.escape = [e]) (hr : Body d quote rest) :
    Body d quote (e :: c :: rest)
  /-- A character that is neither an escape nor the quote. -/
  | plain {c : Char} {rest : List Char} (he : d.escape ≠ [c]) (hq : c ≠ quote)
    (hr : Body d quote rest) : Body d quote (c :: rest)

/-- The inside of a string that is never closed: the text may end after an escape character. -/
def OpenBody (d : Delimiters) (quote : Char) (cs : List Char) : Prop :=
  d.Body quote cs ∨ ∃ e body, d.escape = [e] ∧ d.Body quote body ∧ cs = body ++ [e]

/-- The text from `o` up to `s` is a string. -/
structure IsString (d : Delimiters) (t : Text) (o s : Nat) : Prop where
  not_comment : ¬ t.startsAt d.commentOpener o t.size = true
  quoted : ∃ quote ∈ d.strings, t[o]? = some quote ∧
    ((∃ last, s = last + 1 ∧ o < last ∧ t[last]? = some quote ∧ d.escape ≠ [quote] ∧
      d.Body quote (t.slice (o + 1) last).toList) ∨
    (s = t.size ∧ d.OpenBody quote (t.slice (o + 1) t.size).toList))

/-- An unclosed inside that begins with a pair. -/
theorem OpenBody.pair {e c : Char} {cs : List Char} (he : d.escape = [e])
    (h : d.OpenBody quote cs) : d.OpenBody quote (e :: c :: cs) := by
  rcases h with h | ⟨e', body, he', hbody, rfl⟩
  · exact .inl (.pair he h)
  · exact .inr ⟨e', e :: c :: body, he', .pair he hbody, rfl⟩

/-- An unclosed inside that begins with a plain character. -/
theorem OpenBody.plain {c : Char} {cs : List Char} (he : d.escape ≠ [c]) (hq : c ≠ quote)
    (h : d.OpenBody quote cs) : d.OpenBody quote (c :: cs) := by
  rcases h with h | ⟨e', body, he', hbody, rfl⟩
  · exact .inl (.plain he hq h)
  · exact .inr ⟨e', c :: body, he', .plain he hq hbody, rfl⟩

theorem OpenBody.of_pair {e c : Char} {cs : List Char} (he : d.escape = [e])
    (h : d.OpenBody quote (e :: c :: cs)) : d.OpenBody quote cs := by
  rcases h with h | ⟨e', body, he', hbody, heq⟩
  · cases h with
    | pair _ hr => exact .inl hr
    | plain hne => exact absurd he hne
  · cases hbody with
    | nil => cases heq
    | pair _ hr =>
      simp only [List.cons_append, List.cons.injEq] at heq
      exact .inr ⟨e', _, he', hr, heq.2.2⟩
    | plain hne =>
      simp only [List.cons_append, List.cons.injEq] at heq
      exact absurd (heq.1 ▸ he) hne

theorem OpenBody.of_plain {c : Char} {cs : List Char} (he : d.escape ≠ [c])
    (h : d.OpenBody quote (c :: cs)) : c ≠ quote ∧ d.OpenBody quote cs := by
  rcases h with h | ⟨e', body, he', hbody, heq⟩
  · cases h with
    | pair hesc => exact absurd hesc he
    | plain _ hq hr => exact ⟨hq, .inl hr⟩
  · cases hbody with
    | nil =>
      cases heq
      exact absurd he' he
    | pair hesc =>
      simp only [List.cons_append, List.cons.injEq] at heq
      exact absurd hesc (heq.1 ▸ he)
    | plain _ hq hr =>
      simp only [List.cons_append, List.cons.injEq] at heq
      exact ⟨heq.1 ▸ hq, .inr ⟨e', _, he', hr, heq.2⟩⟩

/-- The quote that follows a whole inside ends it: no longer stretch is an inside. -/
theorem Body.closed {cs rest : List Char} (h : d.Body quote cs) (he : d.escape ≠ [quote]) :
    ¬ d.OpenBody quote (cs ++ quote :: rest) := by
  induction h with
  | nil => exact fun hopen => (hopen.of_plain he).1 rfl
  | pair hesc hr ih => exact fun hopen => ih (hopen.of_pair hesc)
  | plain hne hq hr ih => exact fun hopen => ih (hopen.of_plain hne).2

/-! ## One end for each region -/

theorem IsComment.lt {o s : Nat} (h : d.IsComment t o s) : o < s := by
  have := h.start_le
  have := List.length_pos_iff.mpr d.opener_ne
  omega

theorem IsComment.unique {o s s' : Nat} (h : d.IsComment t o s) (h' : d.IsComment t o s') :
    s = s' := by
  have hle : ∀ {s s'}, d.IsComment t o s → d.IsComment t o s' → s ≤ s' := by
    intro s s' h h'
    rcases h'.ends with hat | rfl
    · exact Nat.le_of_not_lt fun hlt => h.unended s' h'.start_le hlt hat
    · exact h.le_size
  exact Nat.le_antisymm (hle h h') (hle h' h)

theorem IsString.lt {o s : Nat} (h : d.IsString t o s) : o < s := by
  obtain ⟨quote, -, hat, ⟨last, rfl, hlt, -⟩ | ⟨rfl, -⟩⟩ := h.quoted
  · omega
  · exact (Array.getElem?_eq_some_iff.mp hat).1

theorem IsString.unique {o s s' : Nat} (h : d.IsString t o s) (h' : d.IsString t o s') :
    s = s' := by
  -- the earlier of two ends is after a quote that the inside up to the later one would hold
  have hle : ∀ {s s'}, d.IsString t o s → d.IsString t o s' → s ≤ s' := by
    intro s s' h h'
    obtain ⟨quote, -, hat, hend⟩ := h.quoted
    obtain ⟨quote', -, hat', ⟨last', rfl, hlt', hlast', hne', hbody'⟩ | ⟨rfl, -⟩⟩ := h'.quoted
    · rw [hat] at hat'
      cases hat'
      have hsize := (Array.getElem?_eq_some_iff.mp hlast').1
      rw [Array.getElem?_eq_getElem hsize, Option.some.injEq] at hlast'
      have hlong : ∀ e, last' < e → e ≤ t.size →
          ¬ d.OpenBody quote (t.slice (o + 1) e).toList := by
        intro e he hes
        rw [Text.slice_append (show o + 1 ≤ last' by omega) (Nat.le_of_lt he),
          Text.slice_cons he hes, hlast']
        exact hbody'.closed hne'
      rcases hend with ⟨last, rfl, hlt, hlast, hne, hbody⟩ | ⟨rfl, hbody⟩
      · have hlastsize := (Array.getElem?_eq_some_iff.mp hlast).1
        refine Nat.le_of_not_lt fun hgt => hlong last (by omega) (Nat.le_of_lt hlastsize) ?_
        exact .inl hbody
      · exact absurd hbody (hlong t.size hsize (Nat.le_refl _))
    · rcases hend with ⟨last, rfl, -, hlast, -⟩ | ⟨rfl, -⟩
      · exact (Array.getElem?_eq_some_iff.mp hlast).1
      · exact Nat.le_refl _
  exact Nat.le_antisymm (hle h h') (hle h' h)

/-! ## The search for the closing quote -/

/-- From the bound on nothing is read. -/
theorem closingFrom_of_le {steps : Nat} (h : stop ≤ pos) :
    d.closingFrom t quote stop steps pos = .ok pos := by
  cases steps with
  | zero => rfl
  | succ steps => rw [closingFrom, if_neg (by omega)]

/-- The search ends just after the quote that closes the inside read so far, or past the bound. -/
theorem closingFrom_spec (quote : Char) {steps : Nat} (hstop : stop ≤ t.size)
    (hsteps : stop ≤ pos + steps) :
    ∃ close, d.closingFrom t quote stop steps pos = .ok close ∧ pos ≤ close ∧
      ((∃ last, close = last + 1 ∧ pos ≤ last ∧ last < stop ∧ t[last]? = some quote ∧
        d.escape ≠ [quote] ∧ d.Body quote (t.slice pos last).toList) ∨
      (stop ≤ close ∧ d.OpenBody quote (t.slice pos stop).toList)) := by
  induction steps generalizing pos with
  | zero =>
    refine ⟨pos, rfl, Nat.le_refl _, .inr ⟨by omega, ?_⟩⟩
    rw [Text.slice_eq_nil (by omega)]
    exact .inl .nil
  | succ steps ih =>
    by_cases hpos : pos < stop
    · have hsize : pos < t.size := by omega
      simp only [closingFrom, if_pos hpos, Text.charAt_eq_ok hsize]
      by_cases hesc : d.escape = [t[pos]]
      · have hnext : stop ≤ pos + 2 + steps := by omega
        obtain ⟨close, hrun, hle, hend⟩ := ih hnext
        refine ⟨close, by rw [if_pos hesc, hrun], by omega, ?_⟩
        rcases hend with ⟨last, hclose, hlo, hlt, hat, hne, hbody⟩ | ⟨hge, hbody⟩
        · refine .inl ⟨last, hclose, by omega, hlt, hat, hne, ?_⟩
          rw [Text.slice_cons (by omega) (by omega), Text.slice_cons (by omega) (by omega)]
          exact .pair hesc hbody
        · refine .inr ⟨hge, ?_⟩
          rw [Text.slice_cons hpos hstop]
          by_cases hlast : pos + 1 < stop
          · rw [Text.slice_cons hlast hstop]
            exact hbody.pair hesc
          · rw [Text.slice_eq_nil (by omega)]
            exact .inr ⟨_, [], hesc, .nil, rfl⟩
      · rw [if_neg hesc]
        by_cases hq : t[pos] = quote
        · refine ⟨pos + 1, if_pos hq, by omega, .inl ⟨pos, rfl, Nat.le_refl _, hpos, ?_, ?_, ?_⟩⟩
          · rw [Array.getElem?_eq_getElem hsize, hq]
          · rwa [← hq]
          · rw [Text.slice_eq_nil (Nat.le_refl _)]
            exact .nil
        · have hnext : stop ≤ pos + 1 + steps := by omega
          obtain ⟨close, hrun, hle, hend⟩ := ih hnext
          refine ⟨close, by rw [if_neg hq, hrun], by omega, ?_⟩
          rcases hend with ⟨last, hclose, hlo, hlt, hat, hne, hbody⟩ | ⟨hge, hbody⟩
          · refine .inl ⟨last, hclose, by omega, hlt, hat, hne, ?_⟩
            rw [Text.slice_cons (by omega) (by omega)]
            exact .plain hesc hq hbody
          · refine .inr ⟨hge, ?_⟩
            rw [Text.slice_cons hpos hstop]
            exact hbody.plain hesc hq
    · refine ⟨pos, closingFrom_of_le (by omega), Nat.le_refl _, .inr ⟨by omega, ?_⟩⟩
      rw [Text.slice_eq_nil (by omega)]
      exact .inl .nil

/-- A bound on the search cuts its answer off and changes nothing else. -/
theorem closingFrom_cut (quote : Char) {q n m : Nat} (hq : q ≤ stop) (hstop : stop ≤ t.size)
    (hn : q ≤ pos + n) (hm : stop ≤ pos + m) :
    ∃ c₁ c₂, d.closingFrom t quote q n pos = .ok c₁ ∧ d.closingFrom t quote stop m pos = .ok c₂ ∧
      min c₁ q = min c₂ q := by
  induction m generalizing n pos with
  | zero =>
    exact ⟨pos, pos, closingFrom_of_le (by omega), rfl, rfl⟩
  | succ m ih =>
    by_cases hpos : pos < q
    · obtain ⟨n, rfl⟩ : ∃ k, n = k + 1 := ⟨n - 1, by omega⟩
      have hsize : pos < t.size := by omega
      simp only [closingFrom, if_pos hpos, if_pos (show pos < stop by omega),
        Text.charAt_eq_ok hsize]
      split
      · exact ih (by omega) (by omega)
      · split
        · exact ⟨pos + 1, pos + 1, rfl, rfl, rfl⟩
        · exact ih (by omega) (by omega)
    · obtain ⟨close, hrun, hle, -⟩ := closingFrom_spec (d := d) quote hstop hm
      exact ⟨pos, close, closingFrom_of_le (by omega), hrun, by omega⟩

/-! ## The scanner's regions -/

theorem role_eq_stringDelimiter {c : Char} : d.role c = .stringDelimiter ↔ c ∈ d.strings := by
  unfold role
  grind

/-- Where a comment opens, the scanner answers with the first terminator or its bound. -/
theorem regionAt_comment {limit : Nat} (h : t.startsAt d.commentOpener pos limit = true) :
    d.regionAt t pos limit = .ok (some
      ((t.find? d.commentTerminator (pos + d.commentOpener.length) limit).getD limit,
        .comment)) := by
  rw [regionAt, if_pos h]

/-- Where a string opens, the scanner answers with the search for its quote, cut at its bound. -/
theorem regionAt_string {limit close : Nat} (h : ¬ t.startsAt d.commentOpener pos limit = true)
    (hat : t[pos]? = some quote) (hq : quote ∈ d.strings)
    (hrun : d.closingFrom t quote limit (limit - pos) (pos + 1) = .ok close) :
    d.regionAt t pos limit = .ok (some (min close limit, .string)) := by
  simp only [regionAt, if_neg h, Text.charAt, hat, role_eq_stringDelimiter.mpr hq, if_true, hrun]

/-- Where nothing opens under the bound, the scanner answers with nothing. -/
theorem regionAt_of_not_opensBy (h : ¬ d.OpensBy t stop pos) (hpos : pos < t.size) :
    d.regionAt t pos stop = .ok none := by
  have hcom : ¬ t.startsAt d.commentOpener pos stop = true := fun hat => h (.inl hat)
  have hstr : ¬ d.role t[pos] = .stringDelimiter := fun hrole =>
    h (.inr ⟨_, role_eq_stringDelimiter.mp hrole, Array.getElem?_eq_getElem hpos⟩)
  simp only [regionAt, if_neg hcom, Text.charAt_eq_ok hpos, if_neg hstr]

/-- Where something opens under the bound, the scanner finds a comment or string that ends later than
it opens, and by the bound. -/
theorem regionAt_of_opensBy (h : d.OpensBy t stop pos) (hpos : pos < stop) (hstop : stop ≤ t.size) :
    ∃ close category, d.regionAt t pos stop = .ok (some (close, category)) ∧
      pos < close ∧ close ≤ stop ∧ category.isDelimited = true := by
  by_cases hcom : t.startsAt d.commentOpener pos stop = true
  · have hopener := List.length_pos_iff.mpr d.opener_ne
    refine ⟨_, _, regionAt_comment hcom, ?_, ?_, rfl⟩
    · cases hf : t.find? d.commentTerminator (pos + d.commentOpener.length) stop with
      | none => exact hpos
      | some first =>
        have := (Text.find?_eq_some hf).1
        simp only [Option.getD_some]
        omega
    · cases hf : t.find? d.commentTerminator (pos + d.commentOpener.length) stop with
      | none => exact Nat.le_refl _
      | some first =>
        have := Text.startsAt_end_le d.terminator_ne (Text.find?_eq_some hf).2.1
        simp only [Option.getD_some]
        omega
  · obtain ⟨quote, hq, hat⟩ := h.resolve_left hcom
    have hsteps : stop ≤ pos + 1 + (stop - pos) := by omega
    obtain ⟨close, hrun, hle, -⟩ := closingFrom_spec (d := d) quote hstop hsteps
    exact ⟨_, _, regionAt_string hcom hat hq hrun, by omega, Nat.min_le_right _ _, rfl⟩

/-- Where something opens in front of `stop`, the scanner finds a comment or string that ends later
than it opens. -/
theorem regionAt_openerLimit (h : d.Opens t pos) (hpos : pos < stop) (hstop : stop ≤ t.size) :
    ∃ close category, d.regionAt t pos (openerLimit d t stop) = .ok (some (close, category)) ∧
      pos < close ∧ close ≤ openerLimit d t stop ∧ category.isDelimited = true :=
  regionAt_of_opensBy ((opensBy_openerLimit hpos).mpr h) (Nat.lt_of_lt_of_le hpos
    (le_openerLimit hstop)) openerLimit_le

/-- In the whole text the scanner finds the comments and strings. -/
theorem regionAt_whole (h : d.Opens t pos) :
    ∃ close category, d.regionAt t pos t.size = .ok (some (close, category)) ∧
      (category = .comment ∧ d.IsComment t pos close ∨
        category = .string ∧ d.IsString t pos close) := by
  by_cases hcom : t.startsAt d.commentOpener pos t.size = true
  · have hend := Text.startsAt_end_le d.opener_ne hcom
    refine ⟨_, _, regionAt_comment hcom, .inl ⟨rfl, ?_⟩⟩
    cases hf : t.find? d.commentTerminator (pos + d.commentOpener.length) t.size with
    | none =>
      exact ⟨hcom, hend, Nat.le_refl _, fun i hi _ => Text.find?_eq_none d.terminator_ne hf i hi,
        .inr rfl⟩
    | some first =>
      obtain ⟨hle, hat, hquiet⟩ := Text.find?_eq_some hf
      have hfits := Text.startsAt_end_le d.terminator_ne hat
      exact ⟨hcom, hle, by simp only [Option.getD_some]; omega, hquiet, .inl hat⟩
  · rcases h with h | ⟨quote, hq, hat⟩
    · exact absurd h hcom
    · have hpos := (Array.getElem?_eq_some_iff.mp hat).1
      have hsteps : t.size ≤ pos + 1 + (t.size - pos) := by omega
      obtain ⟨close, hrun, hle, hend⟩ :=
        closingFrom_spec (d := d) quote (Nat.le_refl _) hsteps
      refine ⟨_, _, regionAt_string hcom hat hq hrun, .inr ⟨rfl, hcom, quote, hq, hat, ?_⟩⟩
      rcases hend with ⟨last, hclose, hlo, hlt, hlast, hne, hbody⟩ | ⟨hge, hbody⟩
      · exact .inl ⟨last, by omega, by omega, hlast, hne, hbody⟩
      · exact .inr ⟨by omega, hbody⟩

/-- What the scanner finds in the whole text is a comment or a string. -/
theorem isRegion_of_regionAt {close : Nat} {category : Category} (h : d.Opens t pos)
    (hrun : d.regionAt t pos t.size = .ok (some (close, category))) :
    category = .comment ∧ d.IsComment t pos close ∨
      category = .string ∧ d.IsString t pos close := by
  obtain ⟨close', category', hwhole, hregion⟩ := regionAt_whole h
  rw [hrun] at hwhole
  cases hwhole
  exact hregion

/-- A comment is what the scanner finds where it opens. -/
theorem IsComment.regionAt_eq {o s : Nat} (h : d.IsComment t o s) :
    d.regionAt t o t.size = .ok (some (s, .comment)) := by
  obtain ⟨close, category, hrun, ⟨rfl, hend⟩ | ⟨-, hend⟩⟩ := regionAt_whole (.inl h.opens)
  · rw [hrun, h.unique hend]
  · exact absurd h.opens hend.not_comment

theorem IsString.opens {o s : Nat} (h : d.IsString t o s) : d.Opens t o := by
  obtain ⟨quote, hq, hat, -⟩ := h.quoted
  exact .inr ⟨quote, hq, hat⟩

/-- A string is what the scanner finds where it opens. -/
theorem IsString.regionAt_eq {o s : Nat} (h : d.IsString t o s) :
    d.regionAt t o t.size = .ok (some (s, .string)) := by
  obtain ⟨close, category, hrun, ⟨-, hend⟩ | ⟨rfl, hend⟩⟩ := regionAt_whole h.opens
  · exact absurd hend.opens h.not_comment
  · rw [hrun, h.unique hend]

/-- What the scanner finds under a bound, if an opener of comments is not cut by it. A string is cut
off there, and so is a comment, unless its terminator reaches over the bound: of such a terminator the
scanner sees nothing, and the comment goes on up to the bound. -/
theorem regionAt_bounded {close : Nat} {category : Category} (h : d.Opens t pos)
    (hsame : t.startsAt d.commentOpener pos stop = t.startsAt d.commentOpener pos t.size)
    (hpos : pos < stop) (hstop : stop ≤ t.size)
    (hrun : d.regionAt t pos t.size = .ok (some (close, category))) :
    d.regionAt t pos stop = .ok (some (if category = .comment ∧
      stop < close + d.commentTerminator.length then stop else min close stop, category)) := by
  by_cases hcom : t.startsAt d.commentOpener pos t.size = true
  · rw [regionAt_comment hcom] at hrun
    cases hrun
    rw [regionAt_comment (hsame.trans hcom), Text.find?_bounded d.terminator_ne hstop]
    generalize (t.find? d.commentTerminator _ t.size).getD t.size = close
    by_cases hend : close + d.commentTerminator.length ≤ stop
    · rw [if_pos hend, if_neg (fun hover => absurd hover.2 (by omega)),
        Nat.min_eq_left (by omega)]
    · rw [if_neg hend, if_pos ⟨rfl, by omega⟩]
  · obtain ⟨quote, hq, hat⟩ := h.resolve_left hcom
    have hn : stop ≤ pos + 1 + (stop - pos) := by omega
    have hm : t.size ≤ pos + 1 + (t.size - pos) := by omega
    obtain ⟨c₁, c₂, h₁, h₂, hcut⟩ := closingFrom_cut (d := d) quote hstop (Nat.le_refl _) hn hm
    rw [regionAt_string hcom hat hq h₂] at hrun
    cases hrun
    have hmin : min c₁ stop = min (min c₂ t.size) stop := by omega
    rw [regionAt_string (fun hc => hcom (hsame ▸ hc)) hat hq h₁, if_neg (by simp), hmin]

/-- The scanner's bound only cuts a region off, if the terminator of comments is no longer than the
opener. A longer one could stand across `stop` and beyond the characters that the scanner reads
there. -/
theorem regionAt_cut {close : Nat} {category : Category}
    (hlen : d.commentTerminator.length ≤ d.commentOpener.length)
    (h : d.Opens t pos) (hpos : pos < stop) (hstop : stop ≤ t.size)
    (hrun : d.regionAt t pos t.size = .ok (some (close, category))) :
    ∃ close', d.regionAt t pos (openerLimit d t stop) = .ok (some (close', category)) ∧
      min close' stop = min close stop := by
  have hlim : stop ≤ openerLimit d t stop := le_openerLimit hstop
  refine ⟨_, regionAt_bounded h (startsAt_openerLimit hpos) (by omega) openerLimit_le hrun, ?_⟩
  split
  · next hcut =>
    obtain ⟨rfl, hover⟩ := hcut
    -- a terminator that reaches over the bound begins at `stop` or later
    have hlate : stop ≤ close := by
      rcases isRegion_of_regionAt h hrun with ⟨-, hcomment⟩ | ⟨hcat, -⟩
      · rcases hcomment.ends with hat | rfl
        · have hend := Text.startsAt_end_le d.terminator_ne hat
          simp only [openerLimit] at hover
          omega
        · exact hstop
      · cases hcat
    omega
  · omega

end VSyntax.Delimiters
