/-
  Reline.Proofs.Manifest.Writing

  Manifests as they are written, and read back.

  A writer may order the fields of a unit as it likes, put blanks between tokens
  and add fields of its own, as long as each unit stays on its line. One such
  writer, which prints the four fields and nothing else, is given here.
-/

import Reline.Proofs.Json.Printing
import Reline.Proofs.Manifest.Linewise

namespace Reline

open Json

/-! ## Units as they are printed -/

namespace ClassUnit

variable {unit : ClassUnit}

/-- Whether the lines of the mapping are integers of 32 bits. -/
def Fits (unit : ClassUnit) : Prop :=
  ∀ numbers, unit.mapping = some numbers → ∀ n ∈ numbers, FitsInt32 n

/-- A mapping as it is printed. -/
def mappingJson : Option (List Int) → String
  | none => "null"
  | some numbers => "[" ++ ",".intercalate (numbers.map toString) ++ "]"

/-- The fields of a unit with their values as they are printed. -/
def fieldsJson (unit : ClassUnit) : List (Field × String) :=
  [(.qualifiedName, quote unit.qualifiedName), (.entryName, quote unit.entryName),
    (.content, quote unit.content), (.mapping, mappingJson unit.mapping)]

/-- The unit as an object of its four fields, without blanks. -/
def json (unit : ClassUnit) : String :=
  "\x7b" ++ ",".intercalate (unit.fieldsJson.map fun (field, value) =>
    quote field.name ++ ":" ++ value) ++ "\x7d"

theorem declares_members (unit : ClassUnit) : Declares unit.members unit :=
  ⟨_, .inl rfl, [], by simp⟩

theorem mappingText_mappingJson {mapping : Option (List Int)}
    (h : ∀ numbers, mapping = some numbers → ∀ n ∈ numbers, FitsInt32 n) :
    MappingText (mappingJson mapping).toList mapping := by
  cases mapping with
  | none => exact @MappingText.null [] blanks_nil
  | some numbers =>
    have hitems : List.Forall₂ Int32Text (numbers.map fun n => (toString n).toList) numbers := by
      rw [List.forall₂_map_left_iff, List.forall₂_same]
      intro n hn
      exact ⟨integerText_toString n, h numbers rfl n hn⟩
    refine .integers ⟨[], [','].intercalate (numbers.map fun n => (toString n).toList) ++ [']'],
      ?_, blanks_nil, items_intercalate hitems⟩
    simp [mappingJson, String.toList_intercalate, Function.comp_def]

theorem stringText_quote (text : String) : StringText (quote text).toList text :=
  ⟨[], (quote text).toList, (List.nil_append _).symm, blanks_nil, quotedText_quote text⟩

/-- What is printed of a unit whose mapping fits spells it. -/
theorem objectText_json (h : unit.Fits) : ObjectText unit.json.toList unit := by
  have hfields : List.Forall₂ (fun entry member => FieldText entry.1 entry.2.toList member)
      unit.fieldsJson unit.members :=
    .cons (.qualifiedName (stringText_quote _)) <| .cons (.entryName (stringText_quote _)) <|
      .cons (.content (stringText_quote _)) <| .cons (.mapping (mappingText_mappingJson h)) .nil
  have hitems : List.Forall₂ MemberText (unit.fieldsJson.map fun entry =>
      (quote entry.1.name).toList ++ ([] ++ ':' :: entry.2.toList)) unit.members := by
    rw [List.forall₂_map_left_iff]
    exact hfields.imp fun _ _ hfield =>
      .mk (quotedText_quote _) blanks_nil (.known hfield)
  refine ⟨[], _, unit.members, ?_, blanks_nil, items_intercalate hitems, declares_members unit⟩
  simp [json, String.toList_intercalate, Function.comp_def]

theorem printable_mappingJson (mapping : Option (List Int)) :
    Printable (mappingJson mapping).toList := by
  cases mapping with
  | none => decide
  | some numbers =>
    rw [mappingJson, String.toList_append, String.toList_append, String.toList_intercalate,
      printable_append_iff, printable_append_iff]
    refine ⟨⟨by decide, printable_intercalate ?_⟩, by decide⟩
    intro body hbody
    simp only [List.mem_map] at hbody
    obtain ⟨_, ⟨n, -, rfl⟩, rfl⟩ := hbody
    exact (integerText_toString n).printable

theorem printable_json (unit : ClassUnit) : Printable unit.json.toList := by
  rw [json, String.toList_append, String.toList_append, String.toList_intercalate,
    printable_append_iff, printable_append_iff]
  refine ⟨⟨by decide, printable_intercalate ?_⟩, by decide⟩
  intro body hbody
  simp only [List.mem_map] at hbody
  obtain ⟨_, ⟨⟨field, value⟩, hentry, rfl⟩, rfl⟩ := hbody
  have hvalue : Printable value.toList := by
    simp only [fieldsJson, List.mem_cons, Prod.mk.injEq, List.not_mem_nil, or_false] at hentry
    rcases hentry with ⟨-, rfl⟩ | ⟨-, rfl⟩ | ⟨-, rfl⟩ | ⟨-, rfl⟩
    · exact printable_quote _
    · exact printable_quote _
    · exact printable_quote _
    · exact printable_mappingJson _
  rw [String.toList_append, String.toList_append, printable_append_iff, printable_append_iff]
  exact ⟨⟨printable_quote _, by decide⟩, hvalue⟩

end ClassUnit

/-! ## Manifests -/

namespace Manifest

open Text.Utf8 (encode encode_append)

variable {texts : List String} {units : List ClassUnit}

/-- A unit on a line of its own, as an object with blanks around it. -/
def OnLine (text : String) (unit : ClassUnit) : Prop :=
  '\n' ∉ text.toList ∧ ∃ body blanks, text.toList = body ++ blanks
    ∧ ClassUnit.ObjectText body unit ∧ Blanks blanks

/-- Lines, each with its end. -/
def joinLines (texts : List String) : String := String.join (texts.map (· ++ "\n"))

theorem encode_newline : encode "\n" = [0x0A] := by
  rw [Text.Utf8.encode_eq_flatMap]
  rfl

theorem encode_joinLines_cons (text : String) (texts : List String) :
    encode (joinLines (text :: texts)) = encode text ++ 0x0A :: encode (joinLines texts) := by
  rw [joinLines, List.map_cons, String.join_cons, encode_append, encode_append, encode_newline,
    List.append_assoc]
  rfl

/-- Written lines are lines, and each holds its unit. -/
theorem accepts_joinLines (h : List.Forall₂ OnLine texts units) :
    Accepts (lines (encode (joinLines texts))) units := by
  induction h with
  | nil =>
    have hempty : encode (joinLines []) = [] := rfl
    rw [hempty]
    exact accepts_nil_iff.2 rfl
  | @cons text unit texts units honline _ ih =>
    obtain ⟨hnewline, body, blanks, htext, hbody, hblanks⟩ := honline
    -- no other character has the byte of a line feed
    have hunbroken : 0x0A ∉ encode text := fun hmem =>
      hnewline (Text.Utf8.mem_encode_of_lt rfl (by decide) hmem)
    have hline : Holds (dropReturn (encode text)) (some unit) :=
      holds_dropReturn_iff.2 (.unit ⟨body, blanks, htext, .inl hbody, hblanks⟩)
    rw [encode_joinLines_cons, lines_broken hunbroken]
    exact accepts_cons_iff.2 ⟨some unit, units, hline, ih, rfl⟩

theorem joinLines_eq (text : String) (texts : List String) :
    joinLines (text :: texts) = "\n".intercalate (text :: texts) ++ "\n" := by
  induction texts generalizing text with
  | nil => simp [joinLines]
  | cons next texts ih =>
    rw [joinLines, List.map_cons, String.join_cons, ← joinLines, ih, String.intercalate_cons_cons,
      ← String.append_assoc]

/-- The last line end may be left out. -/
theorem accepts_intercalate (h : List.Forall₂ OnLine texts units) :
    Accepts (lines (encode ("\n".intercalate texts))) units := by
  have hjoined := accepts_joinLines h
  cases texts with
  | nil => exact hjoined
  | cons text texts =>
    rw [joinLines_eq, encode_append, encode_newline] at hjoined
    exact (accepts_lines_newline_iff _).1 hjoined

theorem onLine_json {unit : ClassUnit} (h : unit.Fits) : OnLine unit.json unit := by
  refine ⟨fun hbreak => ?_, unit.json.toList, [], by simp, unit.objectText_json h, blanks_nil⟩
  exact absurd (unit.printable_json '\n' hbreak) (by decide)

/-- Units that are written are read back: as they are printed, or with their fields in any order and
others among them, blanks between tokens and a missing mapping left out. -/
theorem parseUnits_written (units : List ClassUnit) :
    ((∀ unit ∈ units, unit.Fits) →
      parseUnits (encode (joinLines (units.map ClassUnit.json))) = .ok units
        ∧ parseUnits (encode ("\n".intercalate (units.map ClassUnit.json))) = .ok units)
    ∧ ∀ texts, List.Forall₂ OnLine texts units →
      parseUnits (encode (joinLines texts)) = .ok units
        ∧ parseUnits (encode ("\n".intercalate texts)) = .ok units := by
  have hwritten : ∀ texts, List.Forall₂ OnLine texts units →
      parseUnits (encode (joinLines texts)) = .ok units
        ∧ parseUnits (encode ("\n".intercalate texts)) = .ok units := by
    intro texts h
    rw [parseUnits_eq_ok_iff, parseUnits_eq_ok_iff]
    exact ⟨accepts_joinLines h, accepts_intercalate h⟩
  refine ⟨fun hfits => hwritten _ ?_, hwritten⟩
  rw [List.forall₂_map_left_iff, List.forall₂_same]
  exact fun unit hunit => onLine_json (hfits unit hunit)

/-- Two units; what one of them holds has to be escaped, or takes several bytes. -/
def sampleUnits : List ClassUnit :=
  [⟨"a/A", "a/A.java", "class A \x7b\n\t\"é\\\x7d", some [1, -2147483648]⟩,
    ⟨"a/B", "a/B.java", "", none⟩]

theorem parseUnits_written_sampleUnits :
    (∀ unit ∈ sampleUnits, unit.Fits)
      ∧ parseUnits (encode (joinLines (sampleUnits.map ClassUnit.json))) = .ok sampleUnits := by
  have hfits : ∀ unit ∈ sampleUnits, unit.Fits := by
    simp [sampleUnits, ClassUnit.Fits, FitsInt32]
  exact ⟨hfits, ((parseUnits_written sampleUnits).1 hfits).1⟩

end Manifest

end Reline
