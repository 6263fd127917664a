import Mathlib.Data.List.Forall2
import VSyntax.Workspace
import VSyntax.Proofs.Places
import VSyntax.Proofs.Outline.Entries

/-!
# Document symbols

What an editor is shown of an outline: one symbol for each entry, in the order of the text
(`Workspace.symbols_show_names`). The places of a symbol are on one line, since a label holds no
line end (`OutlineEntry.Reads.lineOf_eq`), and read back as offsets they are those of the label, so
the name of the symbol is what stands between them. In whatever code units places are counted, a
later offset has a later place (`Place.ofOffset_before`).
-/
namespace VSyntax

variable {t : Text} {units : Option CodeUnits} {e : OutlineEntry} {x y : Nat}

/-! ## Labels -/

/-- A label is on one line. -/
theorem OutlineEntry.Reads.lineOf_eq (h : e.Reads t) :
    Place.lineOf t.lineStarts (e.offset + e.label.size) = Place.lineOf t.lineStarts e.offset := by
  have hsize := h.le_size
  have hoffset : e.offset ≤ t.size := by omega
  obtain ⟨first, last, hline, hfirst, hlast⟩ := Text.exists_isLine hoffset
  have hends : e.offset + e.label.size ≤ last := by
    apply Nat.le_of_not_lt
    intro hbeyond
    -- else the line end would be in the label
    have hat : e.label[last - e.offset]? = some '\n' := by
      rw [h.slice, Text.slice, Array.getElem?_extract, if_pos (by omega), Nat.add_sub_of_le hlast]
      exact hline.ends (by omega)
    exact h.inLine (Array.mem_of_getElem? hat)
  exact hline.lineOf_eq (by omega) hends

/-! ## Symbols -/

/-- What a symbol shows of an outline entry: its name and kind are those of the entry, and the
places that it takes up are on one line and stand for the offsets between which the name is. They
are the places that an editor selects. -/
structure DocumentSymbol.Shows (t : Text) (units : Option CodeUnits) (e : OutlineEntry)
    (s : DocumentSymbol) : Prop where
  name : s.name = e.label
  kind : s.kind = DocumentSymbol.kindNumber e.kind
  detail : s.detail = e.kind
  line : s.first.line = s.last.line
  starts : Place.offset t units s.first = e.offset
  ends : Place.offset t units s.last = e.offset + e.label.size
  between : t.slice (Place.offset t units s.first) (Place.offset t units s.last) = s.name
  selection : s.selection = s.toPlaceRange

/-- The symbol of an entry that the text reads shows it. -/
theorem DocumentSymbol.shows_ofEntry (h : e.Reads t) :
    DocumentSymbol.Shows t units e (.ofEntry t units e) := by
  have hsize := h.le_size
  have hoffset : e.offset ≤ t.size := by omega
  have hstarts : Place.offset t units (Place.ofOffset t units t.lineStarts e.offset) = e.offset :=
    Place.offset_ofOffset hoffset
  have hends : Place.offset t units (Place.ofOffset t units t.lineStarts
      (e.offset + e.label.size)) = e.offset + e.label.size :=
    Place.offset_ofOffset hsize
  refine ⟨rfl, rfl, rfl, h.lineOf_eq.symm, hstarts, hends, ?_, rfl⟩
  show t.slice (Place.offset t units (Place.ofOffset t units t.lineStarts e.offset))
    (Place.offset t units (Place.ofOffset t units t.lineStarts (e.offset + e.label.size))) = e.label
  rw [hstarts, hends]
  exact h.slice.symm

/-- **The symbols of a document show the names of its outline.** For every open document and every
count of code units there is one symbol for each entry of the outline, which shows it, and the
symbols are in the order of the places where they start. -/
theorem Workspace.symbols_show_names {w : Workspace} {uri : String} (ht : w.text uri = .ok t) :
    ∃ entries symbols, outline t = .ok entries ∧ w.symbols uri = .ok symbols ∧
      List.Forall₂ (DocumentSymbol.Shows t (some w.units)) entries symbols ∧
      symbols.Pairwise fun s s' => s.first.Before s'.first := by
  obtain ⟨entries, houtline, -, hlines⟩ := Outline.exists_lineWise t
  refine ⟨entries, entries.map (DocumentSymbol.ofEntry t (some w.units)), houtline, ?_, ?_, ?_⟩
  · have hsession : w.session.outline t = .ok entries := houtline
    unfold symbols
    rw [ht]
    change Except.bind (.ok t) _ = _
    rw [Except.bind, hsession]
    rfl
  · rw [List.forall₂_map_right_iff, List.forall₂_same]
    exact fun e he => DocumentSymbol.shows_ofEntry (hlines.reads e he)
  · rw [List.pairwise_map]
    refine hlines.increasing.imp_of_mem fun {e e'} _ he' hlt => ?_
    have hsize := (hlines.reads e' he').le_size
    exact Place.ofOffset_before hlt (by omega)

/-- A document with a reminder that ends beyond the basic plane, and a method. -/
def Workspace.reminding : Workspace where
  session := ⟨.standard, Standard.table Vocabulary.standard.words, .standard⟩
  units := .utf16
  documents := [("main.v", Text.ofString "x // TODO 😀\npub fn (a A) f()")]

/-- The theorem holds of a document that has two symbols. -/
theorem Workspace.symbols_show_names_reminding :
    ∃ t, reminding.text "main.v" = .ok t ∧
      ∃ entries symbols, outline t = .ok entries ∧ reminding.symbols "main.v" = .ok symbols ∧
        List.Forall₂ (DocumentSymbol.Shows t (some .utf16)) entries symbols ∧
        symbols.Pairwise fun s s' => s.first.Before s'.first :=
  ⟨_, rfl, symbols_show_names rfl⟩

end VSyntax
