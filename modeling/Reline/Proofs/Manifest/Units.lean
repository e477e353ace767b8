/-
  Reline.Proofs.Manifest.Units

  What a manifest holds, and what is wrong with one that cannot be read.

  Every line is judged by itself, so a manifest is read exactly if all of its
  lines are, and otherwise the first line that is not decides.
-/

import Mathlib.Data.List.Forall2
import Reline.Proofs.ClassUnit
import Reline.Proofs.Manifest.Lines
import Reline.Proofs.Text.Utf8

namespace Reline.Manifest

open Text (isBlank isBlankText)
open Text.Utf8 (encode)

variable {line : Bytes} {found found' : List Bytes} {number : Nat} {units : List ClassUnit}

/-! ## One line -/

/-- What a line holds: nothing if it is blank, or a unit. -/
inductive Holds : Bytes → Option ClassUnit → Prop where
  | blank {text : String} (blank : ∀ c ∈ text.toList, isBlank c = true) : Holds (encode text) none
  | unit {text : String} {unit : ClassUnit} (spells : unit.Spells text) :
    Holds (encode text) (some unit)

/-- The error of a line that holds neither, given its number. -/
inductive Offends (number : Nat) : Bytes → Error → Prop where
  | notUtf8 {line : Bytes} (no_text : ∀ text, line ≠ encode text) : Offends number line .notUtf8
  | malformed {text : String} {cause : Json.Error}
    (holds_nothing : ∀ content, ¬ Holds (encode text) content)
    (parse : ClassUnit.parse text = .error cause) :
    Offends number (encode text) (.malformedUnit number text cause)

theorem unitOfLine_eq_ok_iff {content : Option ClassUnit} :
    unitOfLine number line = .ok content ↔ Holds line content := by
  rw [unitOfLine]
  constructor
  · intro h
    split at h
    case h_1 => cases h
    case h_2 text hdecode =>
      obtain rfl := Text.Utf8.decode?_eq_some_iff.1 hdecode
      split at h
      case isTrue hblank =>
        cases h
        exact .blank (List.all_eq_true.1 hblank)
      case isFalse =>
        split at h
        case h_1 unit hparse =>
          cases h
          exact .unit (ClassUnit.parse_eq_ok_iff.1 hparse)
        case h_2 => cases h
  · intro h
    cases h with
    | @blank text blank =>
      have hblank : isBlankText text = true := List.all_eq_true.2 blank
      simp only [Text.Utf8.decode?_encode, hblank, if_true]
    | @unit text unit spells =>
      have hblank : isBlankText text = false := by
        obtain ⟨c, hc, hshown⟩ := spells.exists_mem
        exact List.all_eq_false.2 ⟨c, hc, by simp [hshown]⟩
      have hparse := ClassUnit.parse_eq_ok_iff.2 spells
      simp [Text.Utf8.decode?_encode, hblank, hparse]

/-- A line holds one thing. -/
theorem Holds.unique {content content' : Option ClassUnit} (h : Holds line content)
    (h' : Holds line content') : content = content' := by
  have hsame := (@unitOfLine_eq_ok_iff line 1 content).2 h
  rw [unitOfLine_eq_ok_iff.2 h'] at hsame
  cases hsame
  rfl

theorem unitOfLine_eq_error_iff {e : Error} :
    unitOfLine number line = .error e ↔ Offends number line e := by
  constructor
  · intro h
    -- a line that is refused holds neither a unit nor blanks
    have hnothing : ∀ content, ¬ Holds line content := by
      intro content hcontent
      rw [unitOfLine_eq_ok_iff.2 hcontent] at h
      cases h
    rw [unitOfLine] at h
    split at h
    case h_1 hdecode =>
      cases h
      exact .notUtf8 (Text.Utf8.decode?_eq_none_iff.1 hdecode)
    case h_2 text hdecode =>
      obtain rfl := Text.Utf8.decode?_eq_some_iff.1 hdecode
      split at h
      case isTrue => cases h
      case isFalse =>
        split at h
        case h_1 => cases h
        case h_2 cause hparse =>
          cases h
          exact .malformed hnothing hparse
  · intro h
    cases h with
    | notUtf8 no_text =>
      have hdecode := Text.Utf8.decode?_eq_none_iff.2 no_text
      simp only [unitOfLine, hdecode]
    | @malformed text cause holds_nothing parse =>
      have hblank : ¬ isBlankText text = true := fun hblank =>
        holds_nothing none (.blank (List.all_eq_true.1 hblank))
      simp only [unitOfLine, Text.Utf8.decode?_encode, if_neg hblank, parse]

/-- A line that holds nothing of the kind has an error. -/
theorem exists_offends (number : Nat) (h : ∀ content, ¬ Holds line content) :
    ∃ e, Offends number line e := by
  cases hline : unitOfLine number line with
  | ok content => exact absurd (unitOfLine_eq_ok_iff.1 hline) (h content)
  | error e => exact ⟨e, unitOfLine_eq_error_iff.1 hline⟩

theorem Offends.not_holds {e : Error} (h : Offends number line e) (content : Option ClassUnit) :
    ¬ Holds line content := by
  intro hcontent
  have herror := unitOfLine_eq_error_iff.2 h
  rw [unitOfLine_eq_ok_iff.2 hcontent] at herror
  cases herror

theorem holds_append_return_iff {content : Option ClassUnit} :
    Holds (line ++ [0x0D]) content ↔ Holds line content := by
  have hreturn : Json.isSpace '\r' = true := by decide
  constructor
  · intro h
    -- the last byte is the last character, whatever the line holds
    generalize hbytes : line ++ [0x0D] = bytes at h
    cases h with
    | blank blank =>
      obtain ⟨start, rfl, rfl⟩ :=
        @Text.Utf8.exists_of_encode_eq_append _ _ '\r' _ rfl (by decide) hbytes.symm
      refine .blank fun c hc => blank c ?_
      rw [String.toList_ofList] at hc ⊢
      exact List.mem_append_left _ hc
    | unit spells =>
      obtain ⟨start, rfl, rfl⟩ :=
        @Text.Utf8.exists_of_encode_eq_append _ _ '\r' _ rfl (by decide) hbytes.symm
      exact .unit ((ClassUnit.spells_append_iff hreturn).1 spells)
  · intro h
    have hbytes (text : String) :
        encode text ++ [0x0D] = encode (String.ofList (text.toList ++ ['\r'])) := by
      rw [Text.Utf8.encode_eq_flatMap, Text.Utf8.encode_eq_flatMap, String.toList_ofList,
        List.flatMap_append]
      rfl
    cases h with
    | @blank text blank =>
      rw [hbytes]
      refine .blank fun c hc => ?_
      rw [String.toList_ofList, List.mem_append, List.mem_singleton] at hc
      rcases hc with hc | rfl
      · exact blank c hc
      · decide
    | @unit text _ spells =>
      rw [hbytes]
      rw [← String.ofList_toList (s := text)] at spells
      exact .unit ((ClassUnit.spells_append_iff hreturn).2 spells)

/-- A carriage return at the end of a line means nothing. -/
theorem holds_dropReturn_iff {content : Option ClassUnit} :
    Holds (dropReturn line) content ↔ Holds line content := by
  rcases dropReturn_cases line with hline | hline
  · rw [hline]
  · conv_rhs => rw [hline]
    exact holds_append_return_iff.symm

/-! ## All lines -/

/-- The units of lines, none of which offends. -/
def Accepts (found : List Bytes) (units : List ClassUnit) : Prop :=
  ∃ contents, List.Forall₂ Holds found contents ∧ units = contents.filterMap id

theorem accepts_nil_iff : Accepts [] units ↔ units = [] := by
  simp [Accepts]

theorem accepts_cons_iff : Accepts (line :: found) units ↔
    ∃ content rest, Holds line content ∧ Accepts found rest ∧ units = content.toList ++ rest := by
  constructor
  · rintro ⟨contents, hfound, rfl⟩
    obtain ⟨content, rest, hline, hrest, rfl⟩ := List.forall₂_cons_left_iff.1 hfound
    refine ⟨content, _, hline, ⟨rest, hrest, rfl⟩, ?_⟩
    cases content <;> rfl
  · rintro ⟨content, _, hline, ⟨contents, hfound, rfl⟩, rfl⟩
    refine ⟨content :: contents, .cons hline hfound, ?_⟩
    cases content <;> rfl

theorem unitsOnto_eq_ok_iff {before : List ClassUnit} :
    unitsOnto before number found = .ok units ↔
      ∃ rest, Accepts found rest ∧ units = before.reverse ++ rest := by
  induction found generalizing before number with
  | nil => simp [unitsOnto, accepts_nil_iff, eq_comm]
  | cons line found ih =>
    rw [unitsOnto, bind_eq_ok_iff]
    simp only [unitOfLine_eq_ok_iff, accepts_cons_iff]
    constructor
    · rintro ⟨content, hline, h⟩
      cases content with
      | none =>
        obtain ⟨rest, hrest, rfl⟩ := ih.1 h
        exact ⟨rest, ⟨none, rest, hline, hrest, rfl⟩, rfl⟩
      | some unit =>
        obtain ⟨rest, hrest, rfl⟩ := ih.1 h
        exact ⟨unit :: rest, ⟨some unit, rest, hline, hrest, rfl⟩, by simp⟩
    · rintro ⟨_, ⟨content, rest, hline, hrest, rfl⟩, rfl⟩
      refine ⟨content, hline, ?_⟩
      cases content with
      | none => exact ih.2 ⟨rest, hrest, rfl⟩
      | some unit => exact ih.2 ⟨rest, hrest, by simp⟩

theorem parseUnits_eq_ok_iff {bytes : Bytes} :
    parseUnits bytes = .ok units ↔ Accepts (lines bytes) units := by
  rw [parseUnits, unitsOnto_eq_ok_iff]
  constructor
  · rintro ⟨rest, hrest, rfl⟩
    exact hrest
  · intro h
    exact ⟨units, h, rfl⟩

/-- The first line that offends, and how, given the number of the first line of all. -/
def FirstOffends (number : Nat) (found : List Bytes) (e : Error) : Prop :=
  ∃ front line back, found = front ++ line :: back ∧ (∀ l ∈ front, ∃ content, Holds l content)
    ∧ Offends (number + front.length) line e

theorem firstOffends_cons_iff {e : Error} :
    FirstOffends number (line :: found) e
      ↔ Offends number line e
        ∨ (∃ content, Holds line content) ∧ FirstOffends (number + 1) found e := by
  constructor
  · rintro ⟨front, line', back, hsplit, hfront, hfirst⟩
    cases front with
    | nil =>
      cases hsplit
      exact .inl hfirst
    | cons first front =>
      cases hsplit
      obtain ⟨hholds, hrest⟩ := List.forall_mem_cons.1 hfront
      refine .inr ⟨hholds, front, line', back, rfl, hrest, ?_⟩
      rwa [List.length_cons, ← Nat.add_assoc, Nat.add_right_comm] at hfirst
  · rintro (hfirst | ⟨hholds, front, line', back, rfl, hrest, hfirst⟩)
    · exact ⟨[], line, found, rfl, List.forall_mem_nil _, hfirst⟩
    · refine ⟨line :: front, line', back, rfl, List.forall_mem_cons.2 ⟨hholds, hrest⟩, ?_⟩
      rwa [List.length_cons, ← Nat.add_assoc, Nat.add_right_comm]

/-- The first line that offends decides, whatever follows it. -/
theorem unitsOnto_eq_error_iff {before : List ClassUnit} {e : Error} :
    unitsOnto before number found = .error e ↔ FirstOffends number found e := by
  induction found generalizing before number with
  | nil => simp [unitsOnto, FirstOffends]
  | cons line found ih =>
    rw [unitsOnto, firstOffends_cons_iff]
    cases hline : unitOfLine number line with
    | error e' =>
      have hoffends := unitOfLine_eq_error_iff.1 hline
      constructor
      · intro h
        cases h
        exact .inl hoffends
      · rintro (hfirst | ⟨⟨content, hholds⟩, -⟩)
        · cases hline.symm.trans (unitOfLine_eq_error_iff.2 hfirst)
          rfl
        · exact absurd hholds (hoffends.not_holds content)
    | ok content =>
      have hholds := unitOfLine_eq_ok_iff.1 hline
      have hpasses : ¬ Offends number line e := fun hfirst => hfirst.not_holds content hholds
      rw [or_iff_right hpasses, and_iff_right ⟨content, hholds⟩]
      cases content with
      | none => exact ih
      | some unit => exact ih

theorem parseUnits_eq_error_iff {bytes : Bytes} {e : Error} :
    parseUnits bytes = .error e ↔
      ∃ front line back, lines bytes = front ++ line :: back
        ∧ (∀ l ∈ front, ∃ content, Holds l content) ∧ Offends (front.length + 1) line e := by
  rw [parseUnits, unitsOnto_eq_error_iff, FirstOffends]
  simp only [Nat.add_comm]

end Reline.Manifest
