import VSyntax.StandardLayout
import VSyntax.Proofs.Layout

/-!
# The words of a vocabulary

A class that is built from entries holds the entries that are words, all of them and nothing else:
that the words are kept in order changes no membership (`WordClass.mem_sortWords`), and an entry
that is no word refuses the class. So a vocabulary whose classes can be built gives each keyword set
the words among its entries (`Vocabulary.classes_eq`).
-/
namespace VSyntax

/-! ## Word classes -/

namespace WordClass

variable {w x : List Char} {ws : List (List Char)}

theorem mem_insertWord : w ∈ insertWord x ws ↔ w = x ∨ w ∈ ws := by
  induction ws with
  | nil => simp only [insertWord, List.mem_singleton, List.not_mem_nil, or_false]
  | cons y ys ih =>
    unfold insertWord
    by_cases hlt : x < y
    · rw [if_pos hlt, List.mem_cons]
    · rw [if_neg hlt]
      by_cases hgt : y < x
      · rw [if_pos hgt, List.mem_cons, ih, List.mem_cons]
        exact or_left_comm
      · have hxy : x = y := List.le_antisymm (List.not_lt.mp hgt) (List.not_lt.mp hlt)
        rw [if_neg hgt, hxy, List.mem_cons]
        exact ⟨fun h => .inr h, fun h => h.elim .inl id⟩

theorem mem_sortWords : w ∈ sortWords ws ↔ w ∈ ws := by
  induction ws with
  | nil => exact Iff.rfl
  | cons x ws ih =>
    have hcons : sortWords (x :: ws) = insertWord x (sortWords ws) := rfl
    rw [hcons, mem_insertWord, ih, List.mem_cons]

/-- A checked word is the text of its entry. -/
theorem checkWord_eq_ok {name : String} {d : Datum} (h : checkWord name d = .ok w) :
    ∃ s, d = .text s ∧ s.toList = w := by
  cases d with
  | text s =>
    simp only [checkWord] at h
    split at h
    · cases h
    · split at h
      · cases h
        exact ⟨s, rfl, rfl⟩
      · cases h
  | null | bool | int | real | date | time | dateTime | list | table => cases h

/-- A class that can be built has the given name and category, and holds the checked words. -/
theorem define_eq_ok {name : String} {entries : List Datum} {category : Category} {c : WordClass}
    (h : define name entries category = .ok c) :
    ∃ ws, List.Forall₂ (fun d w => checkWord name d = .ok w) entries ws ∧
      c = ⟨name, sortWords ws, category⟩ := by
  unfold define at h
  split at h
  · cases h
  · cases hws : entries.mapM (checkWord name) with
    | error e => rw [hws] at h; cases h
    | ok ws =>
      rw [hws] at h
      simp only [bind, Except.bind] at h
      split at h
      · cases h
      · cases h
        exact ⟨ws, forall₂_of_mapM_eq_ok hws, rfl⟩

end WordClass

/-! ## Vocabularies -/

namespace Vocabulary

/-- Whether a text is among the entries of a set. -/
def gives (v : Vocabulary) (s : KeywordSet) (w : List Char) : Bool :=
  (v.entries s).any fun
    | .text x => x.toList == w
    | _ => false

/-- The words of the class of a set, if the class can be built. -/
def words (v : Vocabulary) (s : KeywordSet) : List (List Char) :=
  match WordClass.define s.name (v.entries s) s.category with
  | .ok c => c.words
  | .error _ => []

variable {v : Vocabulary} {s : KeywordSet} {w : List Char} {cs : List WordClass}

theorem gives_iff : v.gives s w = true ↔ ∃ x, Datum.text x ∈ v.entries s ∧ x.toList = w := by
  rw [gives, List.any_eq_true]
  constructor
  · rintro ⟨d, hd, hw⟩
    cases d with
    | text x => exact ⟨x, hd, beq_iff_eq.mp hw⟩
    | null | bool | int | real | date | time | dateTime | list | table => cases hw
  · rintro ⟨x, hx, hw⟩
    exact ⟨.text x, hx, beq_iff_eq.mpr hw⟩

/-- A word with a property that no entry of a set has is not in the set. -/
theorem gives_eq_false {p : List Char → Bool} {ws : List String}
    (hentries : v.entries s = ws.map Datum.text) (hnone : ∀ x ∈ ws, p x.toList = false)
    (hw : p w = true) : v.gives s w = false := by
  rw [Bool.eq_false_iff]
  intro hgives
  obtain ⟨x, hx, rfl⟩ := gives_iff.mp hgives
  rw [hentries] at hx
  obtain ⟨y, hy, heq⟩ := List.mem_map.mp hx
  cases heq
  rw [hnone x hy] at hw
  cases hw

/-- A class that can be built holds the texts among the entries. -/
theorem mem_words_of_define {c : WordClass}
    (h : WordClass.define s.name (v.entries s) s.category = .ok c) :
    w ∈ v.words s ↔ v.gives s w = true := by
  have hwords : v.words s = c.words := by simp only [words, h]
  obtain ⟨ws, hws, rfl⟩ := WordClass.define_eq_ok h
  rw [hwords, WordClass.mem_sortWords, gives_iff]
  constructor
  · intro hw
    obtain ⟨d, hd, hcheck⟩ := exists_mem_of_forall₂ hws w hw
    obtain ⟨x, rfl, hx⟩ := WordClass.checkWord_eq_ok hcheck
    exact ⟨x, hd, hx⟩
  · rintro ⟨x, hx, rfl⟩
    obtain ⟨w, hw, hcheck⟩ := exists_mem_of_forall₂ hws.flip _ hx
    obtain ⟨x', heq, hx'⟩ := WordClass.checkWord_eq_ok hcheck
    cases heq
    exact hx' ▸ hw

/-- The classes of a vocabulary are those of its words. -/
theorem classes_eq (h : v.classes = .ok cs) :
    cs = (KeywordSet.all.map fun s => ⟨s.name, v.words s, s.category⟩) ∧
      ∀ s w, w ∈ v.words s ↔ v.gives s w = true := by
  have hall := forall₂_of_mapM_eq_ok h
  have hname : ∀ s c, WordClass.define s.name (v.entries s) s.category = .ok c →
      c = ⟨s.name, v.words s, s.category⟩ := by
    intro s c hc
    have hwords : v.words s = c.words := by simp only [words, hc]
    obtain ⟨ws, -, rfl⟩ := WordClass.define_eq_ok hc
    rw [hwords]
  constructor
  · rw [← List.forall₂_eq_eq_eq, List.forall₂_map_right_iff]
    exact hall.flip.imp fun c s hc => hname s c hc
  · intro s w
    have hs : s ∈ KeywordSet.all := by
      cases s <;> decide
    obtain ⟨c, -, hc⟩ := exists_mem_of_forall₂ hall.flip s hs
    exact mem_words_of_define hc

/-- The classes of the standard vocabulary can be built. -/
theorem exists_classes_standard : ∃ cs, Vocabulary.standard.classes = .ok cs := ⟨_, rfl⟩

end Vocabulary

end VSyntax
