import AddressAtlas.Atlas.Files
import AddressAtlas.Proofs.RowLoading
import AddressAtlas.Proofs.WrittenRows

/-!
# Loads of files

However rows are written, a file of them is loaded like the rows themselves: the same records are stored,
the same events are reported, and the first row at fault is the same one.
-/

namespace AddressAtlas

open Delimited Text

namespace Load

/-- Rows that come from a reader are taken in like any others. -/
theorem addItems_map_ok (l : Load) (rows : List (List String)) :
    l.addItems (rows.map .ok) = (l.addRows rows).mapFault .geo := by
  rw [addItems, addRows, Outcome.fold_map, Outcome.mapFault_fold]
  rfl

lemma mapFault_finish {ε δ : Type} (f : ε → δ) (l : Load) : (l.finish).mapFault f = l.finish := by
  rw [finish_eq, finish_eq]
  rfl

end Load

namespace Atlas

/-- A file of rows is loaded like the rows: it leaves the same atlas and reports the same events, and it
fails where the rows fail and with the same cause. -/
theorem ofPlain_eq_ofRows {rows : List (List String)} {text : List Char} (h : SpellsFile rows text) :
    ofPlain (encodeUtf8 text) = (ofRows rows).mapFault .geo := by
  have hload : ((Load.addItems ⟨empty, 0, 0⟩ (rows.map .ok)).andThen Load.finish) =
      ((Load.addRows ⟨empty, 0, 0⟩ rows).andThen Load.finish).mapFault .geo := by
    rw [Load.addItems_map_ok, Outcome.mapFault_andThen]
    simp only [Load.mapFault_finish]
  rw [ofPlain, extendPlain, extend, items_of_spells h, hload]
  rfl

def mixedRows : List (List String) :=
  [["0", "255", "AU", "", "", "", "", "", ""], ["a,b", "say \"x\"\n"]]

/-- A mark, an empty line, a row that ends with a carriage return, two more empty lines, and a row in
quotes without a line end. -/
def mixedFile : List Char :=
  "\uFEFF\r\n0,255,\"AU\",,,,,,\r\n\n\"a,b\",\"say \"\"x\"\"\n\"".toList

theorem mixedFile_loads : SpellsFile mixedRows mixedFile ∧
    (ofPlain (encodeUtf8 mixedFile)).fault = some (.geo (.record 1 (.missingField 7))) ∧
    (ofPlain (encodeUtf8 mixedFile)).events = [.skipped 0] := by
  have hplain : ∀ field ∈ ["0", "255", ""],
      field.toList.all (fun c => c ≠ ',' ∧ c ≠ '"' ∧ c ≠ '\n' ∧ c ≠ '\r') = true := by decide
  have hunmarked : ∀ field ∈ ["0", "255", ""], field.toList.head? ≠ some '\uFEFF' := by decide
  have hbare : ∀ field ∈ ["0", "255", ""], SpellsField (9 = 1) field field.toList := fun field hfield =>
    .bare (fun c hc => of_decide_eq_true (List.all_eq_true.mp (hplain field hfield) c hc))
      (hunmarked field hfield) fun halone => absurd halone (by decide)
  have hzero := hbare "0" (by decide)
  have hstop := hbare "255" (by decide)
  have hempty := hbare "" (by decide)
  have hskipped : SpellsRow ["0", "255", "AU", "", "", "", "", "", ""] "0,255,\"AU\",,,,,,".toList :=
    .cons hzero (.cons hstop (.cons .quoted (.cons hempty (.cons hempty (.cons hempty (.cons hempty
      (.cons hempty (.last hempty))))))))
  have hquoted : SpellsRow ["a,b", "say \"x\"\n"] "\"a,b\",\"say \"\"x\"\"\n\"".toList :=
    .cons .quoted (.last .quoted)
  have hrows := SpellsRows.cons ⟨[['\r', '\n']], by decide, rfl⟩ hskipped (.inr (.inl rfl))
    (.last ⟨[['\n'], ['\n']], by decide, rfl⟩ hquoted)
  have hspells : SpellsFile mixedRows mixedFile := .inr ⟨_, by decide +kernel, hrows⟩
  rw [ofPlain_eq_ofRows hspells]
  exact ⟨hspells, by decide, by decide⟩

end Atlas

end AddressAtlas
