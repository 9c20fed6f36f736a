import GlslMaterial.Proofs.Source.Insertion

/-! Markers are never lost: whatever is put into a source, it keeps the markers that it has. -/

set_option autoImplicit false

namespace GlslMaterial.Source

theorem exists_insertion_eq (pad : List Char) (code : String) :
    ∃ line, insertion pad code.toList = line ++ ['\n'] := by
  rw [insertion_eq_terminated]
  obtain ⟨first, rest, cut⟩ := List.exists_cons_of_ne_nil
    (Text.lines_ne_nil (Text.dropWhileRight (· == '\n') code.toList))
  have filled : codeLines code ≠ [] := by simp [codeLines, cut]
  obtain ⟨lines, last, ends⟩ := List.eq_nil_or_concat (codeLines code) |>.resolve_left filled
  refine ⟨Text.terminated (lines.map (laid pad)) ++ laid pad last, ?_⟩
  simp [ends]

theorem hasKeyword_between {symbol above inserted below : List Char} (filled : symbol ≠ [])
    (newline : '\n' ∉ symbol) (starts : above = [] ∨ ∃ line, above = line ++ ['\n'])
    (ends : ∃ line, inserted = line ++ ['\n'])
    (has : Text.hasKeyword symbol (above ++ below) = true) :
    Text.hasKeyword symbol (above ++ inserted ++ below) = true := by
  have search := Text.hasKeyword_append_newline filled newline
  obtain ⟨last, rfl⟩ := ends
  rcases starts with rfl | ⟨first, rfl⟩
  · simp only [List.nil_append, List.append_assoc, List.singleton_append] at has ⊢
    rw [search, has, Bool.or_true]
  · simp only [List.append_assoc, List.cons_append, List.nil_append] at has ⊢
    rw [search, Bool.or_eq_true] at has
    rw [search, search]
    rcases has with inside | behind
    · rw [inside, Bool.true_or]
    · rw [behind, Bool.or_true, Bool.or_true]

theorem mentions_insert_of_mentions {s : Source} {name : String} (filled : name.toList ≠ [])
    (newline : '\n' ∉ name.toList) (has : s.mentions name = true) (place : Marker)
    (code : String) : (s.insert place code).mentions name = true := by
  unfold insert insert?
  split
  · exact has
  · rename_i before after found
    obtain ⟨whole, -⟩ := Text.splitKeyword_eq_some found
    have cut := List.prefix_iff_eq_append.1 (Text.dropWhileRight_isPrefix (· != '\n') before)
    rw [← cut] at whole
    simp only [mentions, Option.getD_some, ← whole, List.append_assoc] at has ⊢
    have kept := hasKeyword_between filled newline (Text.dropWhileRight_newline before)
      (exists_insertion_eq (before.drop (Text.dropWhileRight (· != '\n') before).length) code) has
    simpa only [List.append_assoc] using kept

theorem hasMarker_insert {s : Source} {marker : Marker} (has : s.hasMarker marker = true)
    (place : Marker) (code : String) : (s.insert place code).hasMarker marker = true :=
  mentions_insert_of_mentions marker.text_ne_nil marker.newline_notMem_text has place code

theorem insert_of_isEmpty {s : Source} (nothing : s.isEmpty = true) (place : Marker)
    (code : String) : s.insert place code = s := by
  have text : s.text = [] := by simpa [isEmpty] using nothing
  simp [insert, insert?, text, Text.splitKeyword, Text.splitKeywordFrom]

theorem isEmpty_insert (s : Source) (place : Marker) (code : String) :
    (s.insert place code).isEmpty = s.isEmpty := by
  cases empty : s.isEmpty with
  | true => rw [insert_of_isEmpty empty, empty]
  | false =>
    unfold insert insert?
    split
    · exact empty
    · have filled := place.text_ne_nil
      simp [isEmpty, filled]

theorem isEmpty_setVersion (s : Source) (version : Nat) :
    (s.setVersion version).isEmpty = s.isEmpty := by
  unfold setVersion
  split
  · rfl
  · exact s.isEmpty_insert _ _

theorem isEmpty_define (s : Source) (text : String) : (s.define text).isEmpty = s.isEmpty := by
  unfold define
  split
  · rfl
  · exact s.isEmpty_insert _ _

theorem isEmpty_ofTemplate (stage : Stage) : (ofTemplate stage).isEmpty = false := by
  have filled : stage.lines ≠ [] := by cases stage <;> decide
  obtain ⟨first, rest, lines⟩ := List.exists_cons_of_ne_nil filled
  simp [isEmpty, ofTemplate, stage.template_toList, lines]

end GlslMaterial.Source
