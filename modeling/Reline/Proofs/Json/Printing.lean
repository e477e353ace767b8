/-
  Reline.Proofs.Json.Printing

  What is printed is JSON text of what it was printed from, in visible
  characters and blanks only.
-/

import Mathlib.Data.List.Forall2
import Reline.Json.Pretty
import Reline.Proofs.Json.Typed

namespace Reline.Json

variable {α : Type} {s : List Char}

/-! ## Strings -/

theorem hexWord?_hexChar {n : Nat} (h : n < 32) :
    hexWord? '0' '0' (hexChar (n / 16)) (hexChar (n % 16)) = some n := by
  revert n
  decide

theorem toNat_lt_of_lt_space {c : Char} (h : c < ' ') : c.toNat < 32 := h

/-- A character is printed as it may be written in a string. -/
theorem Characters.escapeChar_append {s t : List Char} (h : Characters s t) (c : Char) :
    Characters (escapeChar c ++ s) (c :: t) := by
  rw [escapeChar.eq_def]
  split
  case h_8 quote backslash _ _ _ _ _ =>
    split
    case isTrue hcontrol =>
      -- the number of a control character is none of a surrogate
      have hn := toNat_lt_of_lt_space hcontrol
      have hescape := @Escape.unit _ _ ⟨'0', '0', _, _, rfl, hexWord?_hexChar hn⟩
        (by simp [isLeading]; omega) (by simp [isTrailing]; omega)
      rw [Char.ofNat_toNat] at hescape
      exact .escaped hescape h
    case isFalse hcontrol => exact .plain quote backslash hcontrol h
  all_goals exact .escaped (.short (by simp [shortEscapes])) h

theorem quotedText_quote (text : String) : QuotedText (quote text).toList text := by
  refine ⟨text.toList.flatMap escapeChar, by simp [quote], ?_⟩
  induction text.toList with
  | nil => exact .nil
  | cons c chars ih => exact ih.escapeChar_append c

/-! ## Control characters -/

/-- Whether a text has no control characters. -/
def Printable (s : List Char) : Prop := ∀ c ∈ s, 32 ≤ c.toNat

instance : Decidable (Printable s) := List.decidableBAll _ s

theorem printable_append_iff {t : List Char} :
    Printable (s ++ t) ↔ Printable s ∧ Printable t := List.forall_mem_append

theorem printable_hexChar {n : Nat} (h : n < 32) :
    Printable ['\\', 'u', '0', '0', hexChar (n / 16), hexChar (n % 16)] := by
  revert n
  decide

theorem printable_escapeChar (c : Char) : Printable (escapeChar c) := by
  rw [escapeChar.eq_def]
  split
  case h_8 =>
    split
    case isTrue hcontrol => exact printable_hexChar (toNat_lt_of_lt_space hcontrol)
    case isFalse hcontrol =>
      intro c' hc'
      rw [List.mem_singleton.1 hc']
      exact Nat.not_lt.1 hcontrol
  all_goals decide

theorem printable_quote (text : String) : Printable (quote text).toList := by
  rw [quote, String.toList_append, String.toList_append,
    @String.toList_ofList (text.toList.flatMap escapeChar), printable_append_iff,
    printable_append_iff]
  refine ⟨⟨by decide, fun c hc => ?_⟩, by decide⟩
  obtain ⟨c', -, hc⟩ := List.mem_flatMap.1 hc
  exact printable_escapeChar c' c hc

theorem le_toNat_of_isDigit {c : Char} (h : c.isDigit = true) : 32 ≤ c.toNat := by
  have hlow : 48 ≤ c.toNat := (Char.isDigit_iff_toNat.1 h).1
  omega

theorem IntegerText.printable {body : List Char} {n : Int} (h : IntegerText body n) :
    Printable body := by
  cases h with
  | plain whole => exact fun c hc => le_toNat_of_isDigit (whole.1.2 c hc)
  | minus whole =>
    intro c hc
    rcases List.mem_cons.1 hc with rfl | hc
    · decide
    · exact le_toNat_of_isDigit (whole.1.2 c hc)

/-! ## Elements -/

/-- Elements with commas between them, behind the first or behind nothing. -/
theorem items_of_forall₂ {Grammar : List Char → α → Prop} {closing : Char}
    {bodies : List (List Char)} {elements : List α}
    (h : List.Forall₂ Grammar bodies elements) :
    Items Grammar closing false (bodies.flatMap (',' :: ·) ++ [closing]) elements := by
  induction h with
  | nil => exact @Items.close _ _ _ _ [] blanks_nil
  | @cons body a bodies elements mem _ ih =>
    have hcomma : Separator false [','] := ⟨[], [], rfl, blanks_nil, blanks_nil⟩
    have hitem := Items.item hcomma mem ih
    simpa using hitem

theorem intercalate_cons {bodies : List (List Char)} (body : List Char) :
    [','].intercalate (body :: bodies) = body ++ bodies.flatMap (',' :: ·) := by
  induction bodies generalizing body with
  | nil => simp
  | cons next bodies ih => rw [List.intercalate_cons_cons, ih, List.flatMap_cons]; simp

theorem items_intercalate {Grammar : List Char → α → Prop} {closing : Char}
    {bodies : List (List Char)} {elements : List α}
    (h : List.Forall₂ Grammar bodies elements) :
    Items Grammar closing true ([','].intercalate bodies ++ [closing]) elements := by
  cases h with
  | nil => exact @Items.close _ _ _ _ [] blanks_nil
  | @cons body a bodies elements mem rest =>
    have hfirst : Separator true [] := blanks_nil
    have hitem : Items Grammar closing true _ _ := .item hfirst mem (items_of_forall₂ rest)
    rw [intercalate_cons]
    simpa using hitem

theorem printable_intercalate {bodies : List (List Char)} (h : ∀ body ∈ bodies, Printable body) :
    Printable ([','].intercalate bodies) := by
  cases bodies with
  | nil => exact fun c hc => absurd hc (by simp)
  | cons body bodies =>
    rw [intercalate_cons]
    obtain ⟨hbody, hbodies⟩ := List.forall_mem_cons.1 h
    refine printable_append_iff.2 ⟨hbody, fun c hc => ?_⟩
    obtain ⟨next, hnext, hc⟩ := List.mem_flatMap.1 hc
    rcases List.mem_cons.1 hc with rfl | hc
    · decide
    · exact hbodies next hnext c hc

end Reline.Json
