/-
  Reline.Proofs.Manifest.Linewise

  Manifests are read line by line.

  Lines that hold the same may be exchanged, and blank ones left out; what is
  said here of line ends and of manifests put together follows from that.
-/

import Reline.Proofs.Manifest.Units

namespace Reline.Manifest

open Text.Utf8 (encode)

variable {bytes line line' : Bytes} {found found' : List Bytes} {units : List ClassUnit}

/-! ## Lines that hold the same -/

theorem accepts_append_iff : Accepts (found ++ found') units ↔
    ∃ front back, Accepts found front ∧ Accepts found' back ∧ units = front ++ back := by
  induction found generalizing units with
  | nil => simp [accepts_nil_iff]
  | cons line found ih =>
    rw [List.cons_append, accepts_cons_iff]
    simp only [accepts_cons_iff, ih]
    constructor
    · rintro ⟨content, _, hline, ⟨front, back, hfront, hback, rfl⟩, rfl⟩
      exact ⟨_, back, ⟨content, front, hline, hfront, rfl⟩, hback, by simp⟩
    · rintro ⟨_, back, ⟨content, front, hline, hfront, rfl⟩, hback, rfl⟩
      exact ⟨content, _, hline, ⟨front, back, hfront, hback, rfl⟩, by simp⟩

theorem accepts_cons_congr (hline : ∀ content, Holds line content ↔ Holds line' content)
    (hfound : ∀ units, Accepts found units ↔ Accepts found' units) :
    Accepts (line :: found) units ↔ Accepts (line' :: found') units := by
  simp only [accepts_cons_iff, hline, hfound]

theorem accepts_append_congr (hfound : ∀ units, Accepts found units ↔ Accepts found' units)
    (front : List Bytes) : Accepts (front ++ found) units ↔ Accepts (front ++ found') units := by
  simp only [accepts_append_iff, hfound]

/-- A blank line may be left out. -/
theorem accepts_cons_of_blank (h : Holds line none) :
    Accepts (line :: found) units ↔ Accepts found units := by
  rw [accepts_cons_iff]
  constructor
  · rintro ⟨content, rest, hline, hrest, rfl⟩
    cases hline.unique h
    exact hrest
  · intro hrest
    exact ⟨none, units, h, hrest, rfl⟩

/-! ## Line ends -/

theorem holds_nil : Holds [] none :=
  @Holds.blank "" (by simp)

/-- Whether the last line ends with a line feed does not matter. -/
theorem accepts_lines_newline_iff (bytes : Bytes) :
    Accepts (lines (bytes ++ [0x0A])) units ↔ Accepts (lines bytes) units := by
  obtain ⟨found, hbytes⟩ := exists_splits bytes
  induction hbytes generalizing units with
  | nil =>
    have hempty : lines ([] ++ [0x0A]) = [[]] := lines_broken List.not_mem_nil []
    rw [hempty]
    exact accepts_cons_of_blank holds_nil
  | last ne_nil unbroken =>
    rw [lines_broken unbroken, lines_of_unbroken ne_nil unbroken]
    exact accepts_cons_congr (fun _ => holds_dropReturn_iff) fun _ => Iff.rfl
  | broken unbroken _ ih =>
    rw [List.append_assoc, List.cons_append, lines_broken unbroken, lines_broken unbroken]
    exact accepts_cons_congr (fun _ => Iff.rfl) fun _ => ih

/-- The bytes with a carriage return in front of every line feed. -/
def withReturns (bytes : Bytes) : Bytes :=
  bytes.flatMap fun b => if b = 0x0A then [0x0D, 0x0A] else [b]

theorem withReturns_of_unbroken (h : 0x0A ∉ line) : withReturns line = line := by
  induction line with
  | nil => rfl
  | cons b line ih =>
    have hb : b ≠ 0x0A := fun heq => h (heq ▸ List.mem_cons_self ..)
    have hline : 0x0A ∉ line := fun hmem => h (List.mem_cons_of_mem _ hmem)
    rw [withReturns, List.flatMap_cons, if_neg hb]
    exact congrArg (b :: ·) (ih hline)

theorem withReturns_broken (h : 0x0A ∉ line) (rest : Bytes) :
    withReturns (line ++ 0x0A :: rest) = line ++ [0x0D] ++ 0x0A :: withReturns rest := by
  have hline := withReturns_of_unbroken h
  rw [withReturns] at hline
  rw [withReturns, List.flatMap_append, hline, List.flatMap_cons, if_pos rfl]
  simp [withReturns]

/-- Which of the two line ends is used does not matter. -/
theorem accepts_lines_withReturns_iff (bytes : Bytes) :
    Accepts (lines (withReturns bytes)) units ↔ Accepts (lines bytes) units := by
  obtain ⟨found, hbytes⟩ := exists_splits bytes
  induction hbytes generalizing units with
  | nil => rfl
  | last _ unbroken => rw [withReturns_of_unbroken unbroken]
  | @broken line rest _ unbroken _ ih =>
    have hunbroken : 0x0A ∉ line ++ [0x0D] := by simp [unbroken]
    rw [withReturns_broken unbroken, lines_broken hunbroken, lines_broken unbroken,
      dropReturn_append_return]
    exact accepts_cons_congr (fun _ => holds_dropReturn_iff.symm) fun _ => ih

/-- A blank line may be put in front of any line, and in front of the end. -/
theorem accepts_lines_blank_iff {front back : Bytes} {blank : String}
    (hfront : front = [] ∨ front.getLast? = some 0x0A)
    (hblank : ∀ c ∈ blank.toList, Text.isBlank c = true ∧ c ≠ '\n') :
    Accepts (lines (front ++ (encode blank ++ 0x0A :: back))) units
      ↔ Accepts (lines (front ++ back)) units := by
  have hunbroken : 0x0A ∉ encode blank := by
    intro hmem
    exact (hblank '\n' (Text.Utf8.mem_encode_of_lt rfl (by decide) hmem)).2 rfl
  have hline : Holds (dropReturn (encode blank)) none :=
    holds_dropReturn_iff.2 (.blank fun c hc => (hblank c hc).1)
  have hback : ∀ units, Accepts (lines (encode blank ++ 0x0A :: back)) units
      ↔ Accepts (lines back) units := by
    intro units
    rw [lines_broken hunbroken]
    exact accepts_cons_of_blank hline
  rcases hfront with rfl | hlast
  · exact hback units
  · obtain ⟨front, rfl⟩ := List.getLast?_eq_some_iff.1 hlast
    rw [List.append_assoc, List.append_assoc, List.singleton_append, List.singleton_append,
      lines_append, lines_append front back]
    exact accepts_append_congr hback _

/-! ## Manifests in a row -/

theorem parseUnits_append {other : Bytes} {units' : List ClassUnit}
    (h : parseUnits bytes = .ok units) (h' : parseUnits other = .ok units') :
    parseUnits (bytes ++ 0x0A :: other) = .ok (units ++ units') := by
  rw [parseUnits_eq_ok_iff] at h h' ⊢
  rw [lines_append, accepts_append_iff]
  exact ⟨units, units', (accepts_lines_newline_iff bytes).2 h, h', rfl⟩

/-- What follows a line that ends does not change its error. -/
theorem parseUnits_append_of_error {e : Error} (h : parseUnits (bytes ++ [0x0A]) = .error e)
    (rest : Bytes) : parseUnits (bytes ++ 0x0A :: rest) = .error e := by
  rw [parseUnits_eq_error_iff] at h ⊢
  obtain ⟨front, line, back, hlines, hfront, hfirst⟩ := h
  refine ⟨front, line, back ++ lines rest, ?_, hfront, hfirst⟩
  rw [lines_append, hlines, List.append_assoc, List.cons_append]

/-! ## Line by line -/

/-- Lines are accepted together if each is by itself. -/
theorem exists_accepts_iff :
    (∃ units, Accepts found units) ↔ ∀ line ∈ found, ∃ content, Holds line content := by
  induction found with
  | nil => simp [accepts_nil_iff]
  | cons line found ih =>
    rw [List.forall_mem_cons, ← ih]
    constructor
    · rintro ⟨units, h⟩
      obtain ⟨content, rest, hline, hrest, -⟩ := accepts_cons_iff.1 h
      exact ⟨⟨content, hline⟩, rest, hrest⟩
    · rintro ⟨⟨content, hline⟩, rest, hrest⟩
      exact ⟨_, accepts_cons_iff.2 ⟨content, rest, hline, hrest, rfl⟩⟩

/-- What is reported for a line that offends: that it is not UTF-8, or else its number. -/
theorem Offends.failure {number : Nat} {e : Error} (h : Offends number line e) :
    ((∀ text, line ≠ encode text) → e.failure = .ofText "stream did not contain valid UTF-8")
      ∧ ∀ text, line = encode text →
        e.failure.outermost = "Malformed decompile unit on line " ++ toString number := by
  cases h with
  | notUtf8 no_text => exact ⟨fun _ => rfl, fun text htext => absurd htext (no_text text)⟩
  | @malformed text => exact ⟨fun h => absurd rfl (h text), fun _ _ => rfl⟩

/-- A manifest is read line by line: exactly if each line is blank or a unit, and then to the units
in order; the first other line decides what is reported. Line ends and blank lines do not matter,
and manifests may be put together. -/
theorem parseUnits_linewise (bytes : Bytes) :
    Splits bytes (lines bytes)
    ∧ (∀ units, parseUnits bytes = .ok units ↔
        ∃ contents, List.Forall₂ Holds (lines bytes) contents ∧ units = contents.filterMap id)
    ∧ ((∃ units, parseUnits bytes = .ok units) ↔
        ∀ line ∈ lines bytes, ∃ content, Holds line content)
    ∧ (∀ front line back, lines bytes = front ++ line :: back →
        (∀ l ∈ front, ∃ content, Holds l content) → (∀ content, ¬ Holds line content) →
        ∃ e, parseUnits bytes = .error e ∧ Offends (front.length + 1) line e
          ∧ (∀ other back', lines other = front ++ line :: back' → parseUnits other = .error e)
          ∧ ((∀ text, line ≠ encode text) →
              e.failure = .ofText "stream did not contain valid UTF-8")
          ∧ ∀ text, line = encode text → e.failure.outermost
              = "Malformed decompile unit on line " ++ toString (front.length + 1))
    ∧ (∀ e rest, parseUnits (bytes ++ [0x0A]) = .error e →
        parseUnits (bytes ++ 0x0A :: rest) = .error e)
    ∧ (∀ other units units', parseUnits bytes = .ok units → parseUnits other = .ok units' →
        parseUnits (bytes ++ 0x0A :: other) = .ok (units ++ units'))
    ∧ (∀ units, parseUnits (bytes ++ [0x0A]) = .ok units ↔ parseUnits bytes = .ok units)
    ∧ (∀ front back blank, bytes = front ++ back →
        front = [] ∨ front.getLast? = some 0x0A →
        (∀ c ∈ String.toList blank, Text.isBlank c = true ∧ c ≠ '\n') →
        ∀ units, parseUnits (front ++ (encode blank ++ 0x0A :: back)) = .ok units
          ↔ parseUnits bytes = .ok units)
    ∧ ∀ units, parseUnits (withReturns bytes) = .ok units ↔ parseUnits bytes = .ok units := by
  refine ⟨splits_lines bytes, fun units => parseUnits_eq_ok_iff, ?_, ?_, ?_, ?_, ?_, ?_, ?_⟩
  · simp only [parseUnits_eq_ok_iff]
    exact exists_accepts_iff
  · intro front line back hlines hfront hline
    obtain ⟨e, he⟩ := exists_offends (front.length + 1) hline
    -- the lines up to this one are all that is looked at
    have hdecides : ∀ other back', lines other = front ++ line :: back' →
        parseUnits other = .error e := fun other back' hother =>
      parseUnits_eq_error_iff.2 ⟨front, line, back', hother, hfront, he⟩
    exact ⟨e, hdecides bytes back hlines, he, hdecides, he.failure⟩
  · intro e rest h
    exact parseUnits_append_of_error h rest
  · intro other units units' h h'
    exact parseUnits_append h h'
  · intro units
    rw [parseUnits_eq_ok_iff, parseUnits_eq_ok_iff, accepts_lines_newline_iff]
  · intro front back blank hbytes hfront hblank units
    rw [hbytes, parseUnits_eq_ok_iff, parseUnits_eq_ok_iff,
      accepts_lines_blank_iff hfront hblank]
  · intro units
    rw [parseUnits_eq_ok_iff, parseUnits_eq_ok_iff, accepts_lines_withReturns_iff]

/-- The number of a line counts blank lines too, and what follows the line is not looked at. -/
theorem parseUnits_linewise_thirdLine :
    ∃ e, parseUnits [0x0A, 0x20, 0x0A, 0x78, 0x0A, 0xFF] = .error e
      ∧ e.failure.outermost = "Malformed decompile unit on line 3" := by
  have hblank : ∀ l ∈ ([[], [0x20]] : List Bytes), ∃ content, Holds l content := by
    intro l hl
    rcases List.mem_pair.1 hl with rfl | rfl
    · exact ⟨none, holds_nil⟩
    · exact ⟨none, @Holds.blank " " (List.all_eq_true.1 rfl)⟩
  have hx : ∀ content, ¬ Holds (encode "x") content := by
    intro content h
    have hread := (@unitOfLine_eq_ok_iff _ 3 _).2 h
    rw [unitOfLine, Text.Utf8.decode?_encode] at hread
    cases hread
  obtain ⟨e, herror, -, -, -, hmessage⟩ :=
    (parseUnits_linewise [0x0A, 0x20, 0x0A, 0x78, 0x0A, 0xFF]).2.2.2.1 [[], [0x20]] (encode "x")
      [[0xFF]] rfl hblank hx
  exact ⟨e, herror, hmessage "x" rfl⟩

end Reline.Manifest
