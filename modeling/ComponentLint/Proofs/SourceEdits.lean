-- Documents whose source text is edited. A document is read field by field,
-- so one with another source text gives the same unit but for its lines and
-- the suppressions written on them.
import ComponentLint.Model.Document
import ComponentLint.Proofs.Layout
import ComponentLint.Proofs.LineEdits
import ComponentLint.Proofs.StoredEntries

namespace ComponentLint

open ComponentLint.Text

/-! ## Reading a document -/

namespace Document

/-- What a document is read to: a file, lines, trees, and declared suppressions. -/
structure Reads (origin : String) (v : Value) (file : String) (lines : List String)
    (drafts : List Draft) (declared : List Suppression) : Prop where
  mapping : ∃ entries, v.unfold = .map entries
  file_eq : readFile? v = some file
  lines_eq : readLines origin v = .ok lines
  drafts_eq : ∃ documents, rootDocuments origin v = .ok documents ∧
    readRoots file origin 0 documents = .ok drafts
  declared_eq : readSuppressions file origin (v.field "suppressions") = .ok declared

end Document

/-- A document gives a unit exactly when each of its parts can be read and the trees pass the
checks; the unit is made of these parts. -/
theorem Model.ofDocument_eq_ok_iff {origin : String} {v : Value} {m : Model} :
    Model.ofDocument origin v = .ok m ↔ ∃ file lines drafts declared forest,
      Document.Reads origin v file lines drafts declared ∧
        Draft.checkRoots file drafts = .ok forest ∧
        m = Model.ofForest file forest lines (Suppression.ofLines file lines ++ declared) := by
  constructor
  · intro h
    unfold ofDocument at h
    split at h
    · rename_i entries hmap
      cases hf : Document.readFile? v with
      | none => simp [hf] at h
      | some file =>
        simp only [hf, bind_eq_ok_iff, mapError_eq_ok_iff, ofDrafts_eq_ok_iff] at h
        obtain ⟨lines, hlines, documents, hdocuments, drafts, hdrafts, declared, hdeclared, forest,
          hcheck, hm⟩ := h
        exact ⟨file, lines, drafts, declared, forest,
          ⟨⟨entries, hmap⟩, hf, hlines, ⟨documents, hdocuments, hdrafts⟩, hdeclared⟩, hcheck, hm⟩
    · cases h
  · rintro ⟨file, lines, drafts, declared, forest, hreads, hcheck, hm⟩
    obtain ⟨⟨entries, hmap⟩, hf, hlines, ⟨documents, hdocuments, hdrafts⟩, hdeclared⟩ := hreads
    simp only [ofDocument, hmap, hf, bind_eq_ok_iff, mapError_eq_ok_iff, ofDrafts_eq_ok_iff]
    exact ⟨lines, hlines, documents, hdocuments, drafts, hdrafts, declared, hdeclared, forest,
      hcheck, hm⟩

theorem Model.accepted_of_ofDocument {origin : String} {v : Value} {m : Model}
    (hm : Model.ofDocument origin v = .ok m) : m.Accepted := by
  obtain ⟨file, lines, drafts, declared, forest, -, hcheck, hm⟩ := Model.ofDocument_eq_ok_iff.mp hm
  exact Model.accepted_of_ofDrafts (Model.ofDrafts_eq_ok_iff.mpr ⟨forest, hcheck, hm⟩)

/-! ## Editing the source text -/

namespace Document

/-- A document with another source text. -/
def withSource (source : String) (v : Value) : Value :=
  match v.unfold with
  | .map entries => .map (Value.put (.str "source") (.str source) entries)
  | w => w

/-- A document with a text put at the end of one line of its source text; lines are counted from
zero. -/
def appendToLine (suffix : String) (place : Nat) (v : Value) : Value :=
  match v.field? "source" with
  | some (.str s) => withSource (String.ofList (Text.appendToLine suffix.toList place s.toList)) v
  | _ => v

section

variable {v : Value} {entries : List (Value × Value)} (hmap : v.unfold = .map entries)
include hmap

theorem withSource_eq (source : String) :
    withSource source v = .map (Value.put (.str "source") (.str source) entries) := by
  simp only [withSource, hmap]

theorem field?_source_withSource (source : String) :
    (withSource source v).field? "source" = some (.str source) := by
  rw [withSource_eq hmap]
  exact Value.entry?_put_self _ _ _

theorem field?_withSource {name : String} (h : name ≠ "source") (source : String) :
    (withSource source v).field? name = v.field? name := by
  have hfield : v.field? name = Value.entry? name entries := by
    simp only [Value.field?, hmap]
  rw [withSource_eq hmap, hfield]
  exact Value.entry?_put_ne h _ _

end

/-- A document with another source text is read to the same file, trees and declarations. -/
theorem Reads.withSource {origin : String} {v : Value} {file : String} {lines : List String}
    {drafts : List Draft} {declared : List Suppression}
    (h : Reads origin v file lines drafts declared) (source : String) :
    Reads origin (withSource source v) file (linesOf source) drafts declared := by
  obtain ⟨⟨entries, hmap⟩, hfile, -, hdrafts, hdeclared⟩ := h
  have hfield : ∀ {name : String}, name ≠ "source" →
      (Document.withSource source v).field? name = v.field? name :=
    fun hname => field?_withSource hmap hname source
  refine ⟨⟨Value.put (.str "source") (.str source) entries, ?_⟩, ?_, ?_, ?_, ?_⟩
  · rw [withSource_eq hmap]
    rfl
  · rw [← hfile, readFile?, readFile?, Value.field, Value.field, hfield (by decide)]
  · rw [readLines, field?_source_withSource hmap]
  · simpa only [rootDocuments, hfield (by decide : "nodes" ≠ "source")] using hdrafts
  · rwa [Value.field, hfield (by decide), ← Value.field]

/-- Text put at the end of a source line lengthens that line of the unit. -/
theorem Reads.appendToLine {origin : String} {v : Value} {file : String} {lines : List String}
    {drafts : List Draft} {declared : List Suppression}
    (h : Reads origin v file lines drafts declared) {suffix : String}
    (hends : ∀ c ∈ suffix.toList, isLineEnd c = false) (hne : suffix.toList ≠ []) {place : Nat}
    (hplace : place < lines.length) :
    Reads origin (appendToLine suffix place v) file (lines.modify place (· ++ suffix)) drafts
      declared := by
  have hlines := h.lines_eq
  unfold readLines at hlines
  unfold Document.appendToLine
  split at hlines
  · cases hlines
    simp at hplace
  · rename_i s hs
    cases hlines
    rw [← linesOf_appendToLine s suffix place hends hne hplace]
    simp only [hs]
    exact h.withSource _
  · cases hlines

end Document

end ComponentLint
