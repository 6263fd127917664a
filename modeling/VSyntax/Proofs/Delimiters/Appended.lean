import VSyntax.Proofs.Agree
import VSyntax.Proofs.Delimiters.Walk

/-!
# Texts that are gone on with

What becomes of the comments and strings of a text when characters are put after it. The ones that
end before the last character stay as they are. If none is open at the end of the text
(`Delimiters.EndsOpen`), and no opener of comments begins in the text and ends after it, then the end
of the text lies outside all comments and strings, whatever is put after it (`clear_append`).
-/
namespace VSyntax.Delimiters

open Relation Text

variable {d : Delimiters} {p x : Text} {quote : Char} {o s : Nat}

/-- A comment or a string of the text is not closed: it goes on up to the end of the text and would
go on beyond it. -/
def EndsOpen (d : Delimiters) (t : Text) : Prop :=
  ∃ o, d.Clear t o ∧
    (d.IsComment t o t.size ∨
      ¬ t.startsAt d.commentOpener o t.size = true ∧
        ∃ quote ∈ d.strings, t[o]? = some quote ∧ d.OpenBody quote (t.slice (o + 1) t.size).toList)

/-- Nothing is open at the end of a text in which nothing opens. -/
theorem not_endsOpen (h : ∀ i, ¬ d.Opens p i) : ¬ d.EndsOpen p := by
  rintro ⟨o, -, hcomment | ⟨-, quote, hq, hat, -⟩⟩
  · exact h o (.inl hcomment.opens)
  · exact h o (.inr ⟨quote, hq, hat⟩)

/-- The front of an unclosed inside is one. -/
theorem OpenBody.of_append : ∀ {cs rest : List Char},
    d.OpenBody quote (cs ++ rest) → d.OpenBody quote cs
  | [], _, _ => .inl .nil
  | [c], _, h => by
    by_cases he : d.escape = [c]
    · exact .inr ⟨c, [], he, .nil, rfl⟩
    · exact .plain he (h.of_plain he).1 (.inl .nil)
  | c :: c' :: cs, rest, h => by
    by_cases he : d.escape = [c]
    · exact .pair he (OpenBody.of_append (h.of_pair he))
    · exact .plain he (h.of_plain he).1 (OpenBody.of_append (h.of_plain he).2)

/-! ## The front of the longer text -/

/-- A part stands in the text exactly if it stands in the longer one and ends by the end of the
text. -/
theorem startsAt_append {part : List Char} (hne : part ≠ []) :
    p.startsAt part o p.size = true ↔
      (p ++ x).startsAt part o (p ++ x).size = true ∧ o + part.length ≤ p.size := by
  have hle : p.size ≤ (p ++ x).size := by
    rw [Array.size_append]
    exact Nat.le_add_right _ _
  have h : p.startsAt part (0 + o) (0 + p.size) = (p ++ x).startsAt part (0 + o) (0 + p.size) :=
    agree_append.startsAt_eq (Nat.le_refl _)
  rw [Nat.zero_add, Nat.zero_add] at h
  rw [h, startsAt_iff_whole hne hle]

/-- What opens in the text opens in the longer one. -/
theorem Opens.append (h : d.Opens p o) : d.Opens (p ++ x) o := by
  rcases h with h | ⟨c, hc, hat⟩
  · exact .inl ((startsAt_append d.opener_ne).mp h).1
  · exact .inr ⟨c, hc, by rwa [Array.getElem?_append_left (Array.getElem?_eq_some_iff.mp hat).1]⟩

theorem IsComment.of_append (hterm : d.commentTerminator.length = 1)
    (h : d.IsComment (p ++ x) o s) (hs : s < p.size) : d.IsComment p o s where
  opens := (startsAt_append d.opener_ne).mpr ⟨h.opens, Nat.le_trans h.start_le (Nat.le_of_lt hs)⟩
  start_le := h.start_le
  le_size := Nat.le_of_lt hs
  unended i hi hlt hat := h.unended i hi hlt ((startsAt_append d.terminator_ne).mp hat).1
  ends := by
    rcases h.ends with hat | rfl
    · exact .inl ((startsAt_append d.terminator_ne).mpr ⟨hat, by omega⟩)
    · rw [Array.size_append] at hs
      omega

theorem IsString.of_append (h : d.IsString (p ++ x) o s) (hs : s < p.size) : d.IsString p o s := by
  have ho := h.lt
  refine ⟨fun hat => h.not_comment ((startsAt_append d.opener_ne).mp hat).1, ?_⟩
  obtain ⟨quote, hq, hat, hend⟩ := h.quoted
  rw [Array.getElem?_append_left (by omega)] at hat
  refine ⟨quote, hq, hat, ?_⟩
  rcases hend with ⟨last, rfl, hlt, hlast, hne, hbody⟩ | ⟨rfl, -⟩
  · rw [Array.getElem?_append_left (by omega)] at hlast
    rw [slice_append_left (by omega)] at hbody
    exact .inl ⟨last, rfl, hlt, hlast, hne, hbody⟩
  · rw [Array.size_append] at hs
    omega

/-! ## The walk through the longer text -/

/-- A step of the longer text that ends inside the text is a step of the text. -/
theorem Step.of_append (hterm : d.commentTerminator.length = 1) (h : d.Step (p ++ x) o s)
    (hs : s < p.size) : d.Step p o s := by
  cases h with
  | code hlt quiet => exact .code (by omega) fun hopens => quiet hopens.append
  | region opens found =>
    rcases isRegion_of_regionAt opens found with ⟨rfl, hcomment⟩ | ⟨rfl, hstring⟩
    · have hcomment' := hcomment.of_append hterm hs
      exact .region (.inl hcomment'.opens) hcomment'.regionAt_eq
    · have hstring' := hstring.of_append hs
      exact .region hstring'.opens hstring'.regionAt_eq

theorem Clear.of_append (hterm : d.commentTerminator.length = 1) (h : d.Clear (p ++ x) o)
    (ho : o < p.size) : d.Clear p o := by
  unfold Clear at h
  induction h with
  | refl => exact .start
  | tail _ hstep ih =>
    have hlt := hstep.lt
    exact (ih (by omega)).tail (hstep.of_append hterm ho)

/-- **The end of a text with nothing open is clear, whatever is put after it**, if no opener of
comments begins in the text and ends after it. -/
theorem clear_append (hterm : d.commentTerminator.length = 1) (hopen : ¬ d.EndsOpen p)
    (hopener : ∀ o, o < p.size → (p ++ x).startsAt d.commentOpener o (p ++ x).size = true →
      o + d.commentOpener.length ≤ p.size) : d.Clear (p ++ x) p.size := by
  have hsize : p.size ≤ (p ++ x).size := by
    rw [Array.size_append]
    exact Nat.le_add_right _ _
  rcases enclosing?_spec (d := d) hsize with ⟨-, hclear⟩ | ⟨close, category, -, hinside⟩
  · exact hclear
  · exfalso
    obtain ⟨o, hclear, opens, found, ho, hclose⟩ := hinside
    apply hopen
    refine ⟨o, hclear.of_append hterm ho, ?_⟩
    rcases isRegion_of_regionAt opens found with ⟨-, hcomment⟩ | ⟨-, hstring⟩
    · have hfits := hopener o ho hcomment.opens
      exact .inl ⟨(startsAt_append d.opener_ne).mpr ⟨hcomment.opens, hfits⟩, hfits, Nat.le_refl _,
        fun i hi hlt hat => hcomment.unended i hi (by omega)
          ((startsAt_append d.terminator_ne).mp hat).1, .inr rfl⟩
    · refine .inr ⟨fun hat => hstring.not_comment ((startsAt_append d.opener_ne).mp hat).1, ?_⟩
      obtain ⟨quote, hq, hat, hend⟩ := hstring.quoted
      refine ⟨quote, hq, by rwa [Array.getElem?_append_left ho] at hat, ?_⟩
      -- the inside goes on past the end of the text, so its front is unclosed
      have hfront : ∀ e, p.size ≤ e → d.OpenBody quote ((p ++ x).slice (o + 1) e).toList →
          d.OpenBody quote (p.slice (o + 1) p.size).toList := by
        intro e he hbody
        rw [slice_append (show o + 1 ≤ p.size from ho) he, slice_append_left (Nat.le_refl _)]
          at hbody
        exact hbody.of_append
      rcases hend with ⟨last, rfl, hlt, -, -, hbody⟩ | ⟨rfl, hbody⟩
      · exact hfront last (by omega) (.inl hbody)
      · exact hfront _ hsize hbody

end VSyntax.Delimiters

/-! ## The marks of the source language -/

namespace VSyntax.Standard

variable {p x : Text} {o : Nat}

/-- Only a slash and the string delimiters open anything. -/
theorem not_opens_of_char {y : Char} (hat : p[o]? = some y)
    (hy : y ∉ '/' :: Delimiters.standard.strings) : ¬ Delimiters.standard.Opens p o := by
  rintro (hopener | ⟨quote, hquote, hopener⟩)
  · have hslash := (Text.startsAt_iff.mp hopener 0 (by decide)).2
    rw [Nat.add_zero, hat, Option.some.injEq] at hslash
    exact hy (hslash ▸ List.mem_cons_self)
  · rw [hat, Option.some.injEq] at hopener
    exact hy (List.mem_cons_of_mem _ (hopener ▸ hquote))

/-- The end of a text with nothing open is clear, unless the text ends in a slash and another one is
put after it. -/
theorem clear_append (hopen : ¬ Delimiters.standard.EndsOpen p)
    (hslash : p.back? = some '/' → x[0]? ≠ some '/') : Delimiters.standard.Clear (p ++ x) p.size := by
  apply Delimiters.clear_append rfl hopen
  intro o ho hat
  apply Nat.le_of_not_lt
  intro hlt
  have hlen : Delimiters.standard.commentOpener.length = 2 := rfl
  obtain rfl : o = p.size - 1 := by omega
  have hfirst := (Text.startsAt_iff.mp hat 0 (by decide)).2
  rw [Nat.add_zero, Array.getElem?_append_left ho] at hfirst
  have hsecond := (Text.startsAt_iff.mp hat 1 (by decide)).2
  rw [Nat.sub_add_cancel (by omega), Array.getElem?_append_right (Nat.le_refl _), Nat.sub_self]
    at hsecond
  exact hslash (Array.back?_eq_getElem?.trans hfirst) hsecond

end VSyntax.Standard
