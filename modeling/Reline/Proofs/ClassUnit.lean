/-
  Reline.Proofs.ClassUnit

  The texts that spell a unit.

  A reader keeps the fields it has found, in a draft. What a text must satisfy is
  said without it: its members are those of the unit, in any order and with others
  among them.
-/

import Mathlib.Data.List.Perm.Basic
import Reline.ClassUnit
import Reline.Proofs.Json.Typed
import Reline.Text.Blank

namespace Reline.ClassUnit

open Json

variable {s r : List Char} {draft draft' : Draft} {unit : ClassUnit}

/-! ## Members -/

/-- A field with its value, or one that a unit does not have. -/
inductive Member where
  | qualifiedName (text : String)
  | entryName (text : String)
  | content (text : String)
  | mapping (mapping : Option (List Int))
  | other (name : String)
deriving DecidableEq

namespace Member

/-- The field of a unit that the member is. -/
@[simp] def field? : Member → Option Field
  | qualifiedName _ => some .qualifiedName
  | entryName _ => some .entryName
  | content _ => some .content
  | mapping _ => some .mapping
  | other _ => none

/-- The draft with the member. -/
@[simp] def put (draft : Draft) : Member → Draft
  | qualifiedName text => { draft with qualifiedName := some text }
  | entryName text => { draft with entryName := some text }
  | content text => { draft with content := some text }
  | mapping value => { draft with mapping := some value }
  | other _ => draft

/-- The draft with the member, unless it has that field. -/
@[simp] def add (draft : Draft) (member : Member) : Option Draft :=
  if member.field?.any draft.has then none else some (member.put draft)

/-- The qualified name that the member declares. -/
@[simp] def qualifiedName? : Member → Option String
  | qualifiedName text => some text
  | _ => none

/-- The entry name that the member declares. -/
@[simp] def entryName? : Member → Option String
  | entryName text => some text
  | _ => none

/-- The text that the member declares. -/
@[simp] def content? : Member → Option String
  | content text => some text
  | _ => none

/-- The mapping that the member declares. -/
@[simp] def mapping? : Member → Option (Option (List Int))
  | mapping value => some value
  | _ => none

/-- The name of a member that a unit does not have. -/
@[simp] def other? : Member → Option String
  | other name => some name
  | _ => none

end Member

/-- The members that a unit has. -/
def members (unit : ClassUnit) : List Member :=
  [.qualifiedName unit.qualifiedName, .entryName unit.entryName, .content unit.content,
    .mapping unit.mapping]

/-- Whether members declare a unit: they are its own in any order, with others among them. A mapping
that is missing may be left out. -/
def Declares (members : List Member) (unit : ClassUnit) : Prop :=
  ∃ own, (own = unit.members ∨ unit.mapping = none ∧ own = unit.members.dropLast)
    ∧ ∃ others : List String, members.Perm (own ++ others.map .other)

/-! ## Texts -/

/-- The value of a field. -/
inductive FieldText : Field → List Char → Member → Prop where
  | qualifiedName {body : List Char} {text : String} (string : StringText body text) :
    FieldText .qualifiedName body (.qualifiedName text)
  | entryName {body : List Char} {text : String} (string : StringText body text) :
    FieldText .entryName body (.entryName text)
  | content {body : List Char} {text : String} (string : StringText body text) :
    FieldText .content body (.content text)
  | mapping {body : List Char} {mapping : Option (List Int)} (value : MappingText body mapping) :
    FieldText .mapping body (.mapping mapping)

/-- The value of a key: that of a field, or any value behind any other key. -/
inductive EntryText : String → List Char → Member → Prop where
  | known {field : Field} {body : List Char} {member : Member} (mem : FieldText field body member) :
    EntryText field.name body member
  | other {name : String} {body : List Char} (unknown : Field.ofName? name = none)
    (mem : ValueText body) : EntryText name body (.other name)

/-- A key and its value. -/
inductive MemberText : List Char → Member → Prop where
  | mk {name : String} {key blanks value : List Char} {member : Member}
    (key_mem : QuotedText key name) (behind : Blanks blanks)
    (value_mem : EntryText name value member) :
    MemberText (key ++ (blanks ++ ':' :: value)) member

/-- The rest of a list with the values of given fields. It may end where the mapping is due. -/
inductive ElementsText : List Field → Bool → List Char → List Member → Prop where
  | close {first : Bool} {blanks : List Char} (before : Blanks blanks) :
    ElementsText [] first (blanks ++ [']']) []
  | short {fields : List Field} {first : Bool} {blanks : List Char} (before : Blanks blanks) :
    ElementsText (.mapping :: fields) first (blanks ++ [']']) []
  | next {fields : List Field} {field : Field} {first : Bool} {separator body rest : List Char}
    {member : Member} {members : List Member} (before : Separator first separator)
    (mem : FieldText field body member) (rest_mem : ElementsText fields false rest members) :
    ElementsText (field :: fields) first (separator ++ (body ++ rest)) (member :: members)

/-- The object form of a unit. -/
def ObjectText (body : List Char) (unit : ClassUnit) : Prop :=
  ∃ blanks items members, body = blanks ++ '{' :: items ∧ Blanks blanks
    ∧ Items MemberText '}' true items members ∧ Declares members unit

/-- The list form of a unit. -/
def ListText (body : List Char) (unit : ClassUnit) : Prop :=
  ∃ blanks items members, body = blanks ++ '[' :: items ∧ Blanks blanks
    ∧ ElementsText [.qualifiedName, .entryName, .content, .mapping] true items members
    ∧ Declares members unit

/-- A unit, with blanks in front. -/
def UnitText (body : List Char) (unit : ClassUnit) : Prop :=
  ObjectText body unit ∨ ListText body unit

/-- Whether a text spells a unit, up to blanks around it. -/
def Spells (text : String) (unit : ClassUnit) : Prop :=
  ∃ body blanks, text.toList = body ++ blanks ∧ UnitText body unit ∧ Blanks blanks

/-! ## Drafts -/

theorem toList_inj {α : Type} {o o' : Option α} : o.toList = o'.toList ↔ o = o' := by
  cases o <;> cases o' <;> simp

theorem cons_cons_ne_toList {α : Type} {a b : α} {l : List α} {o : Option α} :
    a :: b :: l ≠ o.toList := by
  cases o <;> simp

/-- Members can be added if no field comes twice; each field then has the value declared. -/
theorem foldlM_add_eq_some_iff {members : List Member} :
    members.foldlM Member.add draft = some draft' ↔
      draft.qualifiedName.toList ++ members.filterMap Member.qualifiedName?
          = draft'.qualifiedName.toList
        ∧ draft.entryName.toList ++ members.filterMap Member.entryName?
          = draft'.entryName.toList
        ∧ draft.content.toList ++ members.filterMap Member.content? = draft'.content.toList
        ∧ draft.mapping.toList ++ members.filterMap Member.mapping?
          = draft'.mapping.toList := by
  induction members generalizing draft with
  | nil =>
    obtain ⟨q, e, c, m⟩ := draft
    obtain ⟨q', e', c', m'⟩ := draft'
    simp [toList_inj]
  | cons member members ih =>
    obtain ⟨q, e, c, m⟩ := draft
    rw [List.foldlM_cons]
    -- a field that the draft has already would have two values
    cases member with
    | qualifiedName text =>
      cases q with
      | none => simp [Draft.has, ih, List.filterMap_cons]
      | some => simp [Draft.has, cons_cons_ne_toList]
    | entryName text =>
      cases e with
      | none => simp [Draft.has, ih, List.filterMap_cons]
      | some => simp [Draft.has, cons_cons_ne_toList]
    | content text =>
      cases c with
      | none => simp [Draft.has, ih, List.filterMap_cons]
      | some => simp [Draft.has, cons_cons_ne_toList]
    | mapping value =>
      cases m with
      | none => simp [Draft.has, ih, List.filterMap_cons]
      | some => simp [Draft.has, cons_cons_ne_toList]
    | other name => simp [ih, List.filterMap_cons]

theorem complete_eq_ok_iff : draft.complete = .ok unit ↔
    draft.qualifiedName = some unit.qualifiedName ∧ draft.entryName = some unit.entryName
      ∧ draft.content = some unit.content ∧ draft.mapping.getD none = unit.mapping := by
  obtain ⟨q, e, c, m⟩ := draft
  obtain ⟨q', e', c', m'⟩ := unit
  cases q with
  | none => exact ⟨nofun, fun h => nomatch h.1⟩
  | some q =>
    cases e with
    | none => exact ⟨nofun, fun h => nomatch h.2.1⟩
    | some e =>
      cases c with
      | none => exact ⟨nofun, fun h => nomatch h.2.2.1⟩
      | some c => simp [Draft.complete, pure, Except.pure]

/-! ## What members declare -/

/-- Members may be sorted by their fields. -/
theorem perm_sorted (members : List Member) :
    members.Perm ((members.filterMap Member.qualifiedName?).map .qualifiedName
      ++ ((members.filterMap Member.entryName?).map .entryName
      ++ ((members.filterMap Member.content?).map .content
      ++ ((members.filterMap Member.mapping?).map .mapping
      ++ (members.filterMap Member.other?).map .other)))) := by
  induction members with
  | nil => exact .nil
  | cons member members ih =>
    -- a member counts in the list of its own kind and in no other
    rw [List.perm_iff_count] at ih ⊢
    intro a
    have hcount := ih a
    cases member <;>
      simp only [List.filterMap_cons, Member.qualifiedName?, Member.entryName?, Member.content?,
        Member.mapping?, Member.other?, List.map_cons, List.count_cons, List.count_append]
        at hcount ⊢ <;> omega

/-- Members declare a unit if each of its fields comes once, except for the mapping. -/
theorem declares_iff {members : List Member} : Declares members unit ↔
    members.filterMap Member.qualifiedName? = [unit.qualifiedName]
      ∧ members.filterMap Member.entryName? = [unit.entryName]
      ∧ members.filterMap Member.content? = [unit.content]
      ∧ (members.filterMap Member.mapping? = [unit.mapping]
        ∨ members.filterMap Member.mapping? = [] ∧ unit.mapping = none) := by
  constructor
  · rintro ⟨own, hown, others, hperm⟩
    -- what is found for a field does not depend on the order, as it is found once
    have hothers : (others.map Member.other).filterMap Member.qualifiedName? = []
        ∧ (others.map Member.other).filterMap Member.entryName? = []
        ∧ (others.map Member.other).filterMap Member.content? = []
        ∧ (others.map Member.other).filterMap Member.mapping? = [] := by
      simp [List.filterMap_map]
    have hq := hperm.filterMap Member.qualifiedName?
    have he := hperm.filterMap Member.entryName?
    have hc := hperm.filterMap Member.content?
    have hm := hperm.filterMap Member.mapping?
    rw [List.filterMap_append, hothers.1] at hq
    rw [List.filterMap_append, hothers.2.1] at he
    rw [List.filterMap_append, hothers.2.2.1] at hc
    rw [List.filterMap_append, hothers.2.2.2] at hm
    rcases hown with rfl | ⟨hnone, rfl⟩
    · exact ⟨List.perm_singleton.1 hq, List.perm_singleton.1 he, List.perm_singleton.1 hc,
        .inl (List.perm_singleton.1 hm)⟩
    · exact ⟨List.perm_singleton.1 hq, List.perm_singleton.1 he, List.perm_singleton.1 hc,
        .inr ⟨List.perm_nil.1 hm, hnone⟩⟩
  · rintro ⟨hq, he, hc, hm⟩
    have hsorted := perm_sorted members
    rw [hq, he, hc] at hsorted
    rcases hm with hm | ⟨hm, hnone⟩
    · rw [hm] at hsorted
      exact ⟨_, .inl rfl, _, hsorted⟩
    · rw [hm] at hsorted
      exact ⟨_, .inr ⟨hnone, rfl⟩, _, hsorted⟩

theorem exists_complete_iff {members : List Member} :
    (∃ draft, members.foldlM Member.add .empty = some draft ∧ draft.complete = .ok unit)
      ↔ Declares members unit := by
  simp only [foldlM_add_eq_some_iff, complete_eq_ok_iff, declares_iff]
  constructor
  · rintro ⟨⟨q, e, c, m⟩, ⟨hq, he, hc, hm⟩, rfl, rfl, rfl, hmapping⟩
    refine ⟨hq, he, hc, ?_⟩
    cases m with
    | none => exact .inr ⟨hm, hmapping.symm⟩
    | some m =>
      have hunit : m = unit.mapping := hmapping
      exact .inl (hunit ▸ hm)
  · rintro ⟨hq, he, hc, hm⟩
    rcases hm with hm | ⟨hm, hnone⟩
    · exact ⟨⟨some unit.qualifiedName, some unit.entryName, some unit.content,
        some unit.mapping⟩, ⟨hq, he, hc, hm⟩, rfl, rfl, rfl, rfl⟩
    · exact ⟨⟨some unit.qualifiedName, some unit.entryName, some unit.content, none⟩,
        ⟨hq, he, hc, hm⟩, rfl, rfl, rfl, hnone.symm⟩

/-! ## Objects -/

theorem ofName?_name (field : Field) : Field.ofName? field.name = some field := by
  cases field <;> rfl

theorem name_of_ofName? {name : String} {field : Field} (h : Field.ofName? name = some field) :
    field.name = name := by
  have hfound := List.find?_some h
  simpa using hfound

theorem readField_eq_ok_iff {field : Field} :
    draft.readField field s = .ok (draft', r) ↔
      ∃ body member, s = body ++ r ∧ FieldText field body member ∧ draft' = member.put draft := by
  cases field with
  | qualifiedName =>
    refine (reads_readString.map_eq_ok_iff
      (f := fun text => { draft with qualifiedName := some text })).trans ?_
    constructor
    · rintro ⟨body, text, rfl, hbody, rfl⟩
      exact ⟨body, _, rfl, .qualifiedName hbody, rfl⟩
    · rintro ⟨body, _, rfl, hfield, rfl⟩
      cases hfield with
      | qualifiedName hbody => exact ⟨body, _, rfl, hbody, rfl⟩
  | entryName =>
    refine (reads_readString.map_eq_ok_iff
      (f := fun text => { draft with entryName := some text })).trans ?_
    constructor
    · rintro ⟨body, text, rfl, hbody, rfl⟩
      exact ⟨body, _, rfl, .entryName hbody, rfl⟩
    · rintro ⟨body, _, rfl, hfield, rfl⟩
      cases hfield with
      | entryName hbody => exact ⟨body, _, rfl, hbody, rfl⟩
  | content =>
    refine (reads_readString.map_eq_ok_iff
      (f := fun text => { draft with content := some text })).trans ?_
    constructor
    · rintro ⟨body, text, rfl, hbody, rfl⟩
      exact ⟨body, _, rfl, .content hbody, rfl⟩
    · rintro ⟨body, _, rfl, hfield, rfl⟩
      cases hfield with
      | content hbody => exact ⟨body, _, rfl, hbody, rfl⟩
  | mapping =>
    refine (reads_readOptional_readIntegers.map_eq_ok_iff
      (f := fun value => { draft with mapping := some value })).trans ?_
    constructor
    · rintro ⟨body, value, rfl, hbody, rfl⟩
      exact ⟨body, _, rfl, .mapping hbody, rfl⟩
    · rintro ⟨body, _, rfl, hfield, rfl⟩
      cases hfield with
      | mapping hbody => exact ⟨body, _, rfl, hbody, rfl⟩

theorem field?_of_fieldText {field : Field} {body : List Char} {member : Member}
    (h : FieldText field body member) : member.field? = some field := by
  cases h <;> rfl

/-- The colon behind a key, and what is read behind it. -/
theorem readColon_bind_eq_ok_iff {α : Type} {read : List Char → Result α} {a : α} :
    ((readColon s).bind fun ((), rest) => read rest) = .ok (a, r) ↔
      ∃ blanks rest, s = blanks ++ ':' :: rest ∧ Blanks blanks ∧ read rest = .ok (a, r) := by
  constructor
  · intro h
    obtain ⟨⟨_, rest⟩, hcolon, hread⟩ := bind_eq_ok_iff.1 h
    obtain ⟨_, rfl, blanks, rfl, hblanks⟩ := (reads_readColon ..).1 hcolon
    exact ⟨blanks, rest, by simp, hblanks, hread⟩
  · rintro ⟨blanks, rest, rfl, hblanks, hread⟩
    have hcolon : readColon (blanks ++ ':' :: rest) = .ok ((), rest) :=
      (reads_readColon ..).2 ⟨blanks ++ [':'], by simp, blanks, rfl, hblanks⟩
    exact bind_eq_ok_iff.2 ⟨_, hcolon, hread⟩

/-- Members that are read are added to the draft one after the other, and other keys passed over. -/
theorem exists_of_readFields {turns : Nat} {first : Bool}
    (h : readFields turns first draft s = .ok (draft', r)) :
    ∃ body rest members, s = body ++ rest ∧ r = '}' :: rest
      ∧ Items MemberText '}' first body members
      ∧ members.foldlM Member.add draft = some draft' := by
  induction turns generalizing first draft s with
  | zero => simp [readFields] at h
  | succ turns ih =>
    rw [readFields] at h
    split at h
    case h_1 => cases h
    case h_2 rest hnext =>
      cases h
      obtain ⟨blanks, rest, rfl, hblanks, rfl⟩ := nextKey_eq_none_iff.1 hnext
      exact ⟨blanks ++ ['}'], rest, [], by simp, rfl, .close hblanks, rfl⟩
    case h_3 key rest hnext =>
      obtain ⟨separator, quoted, rfl, hseparator, hquoted⟩ := nextKey_eq_some_iff.1 hnext
      split at h
      case h_1 field hfield =>
        split at h
        case isTrue => simp at h
        case isFalse hhas =>
          split at h
          case h_1 => cases h
          case h_2 draft₁ after hread =>
            obtain ⟨blanks, rest', rfl, hblanks, hvalue⟩ := readColon_bind_eq_ok_iff.1 hread
            obtain ⟨value, member, rfl, hmember, rfl⟩ := readField_eq_ok_iff.1 hvalue
            obtain ⟨items, rest, members, rfl, rfl, hitems, hadd⟩ := ih h
            refine ⟨separator ++ (quoted ++ (blanks ++ ':' :: value) ++ items), rest,
              member :: members, by simp, rfl, .item hseparator ?_ hitems, ?_⟩
            -- the key is the name of the field it was taken for
            · rw [← name_of_ofName? hfield] at hquoted
              exact .mk hquoted hblanks (.known hmember)
            · rw [List.foldlM_cons, Member.add, field?_of_fieldText hmember, Option.any_some,
                if_neg hhas]
              exact hadd
      case h_2 hunknown =>
        split at h
        case h_1 => cases h
        case h_2 after hread =>
          obtain ⟨blanks, rest', rfl, hblanks, hvalue⟩ := readColon_bind_eq_ok_iff.1 hread
          obtain ⟨value, rfl, hbody⟩ := exists_of_skipValue hvalue
          obtain ⟨items, rest, members, rfl, rfl, hitems, hadd⟩ := ih h
          refine ⟨separator ++ (quoted ++ (blanks ++ ':' :: value) ++ items), rest,
            .other key :: members, by simp, rfl, .item hseparator ?_ hitems, ?_⟩
          · exact .mk hquoted hblanks (.other hunknown hbody)
          · simpa using hadd

theorem readFields_append {first : Bool} {body : List Char} {members : List Member}
    (h : Items MemberText '}' first body members)
    (hadd : members.foldlM Member.add draft = some draft') {turns : Nat}
    (hturns : body.length < turns) :
    readFields turns first draft (body ++ r) = .ok (draft', '}' :: r) := by
  induction h generalizing draft turns with
  | @close first blanks before =>
    obtain ⟨turns, rfl⟩ : ∃ k, turns = k + 1 := ⟨turns - 1, by omega⟩
    cases hadd
    have hnext : nextKey first (blanks ++ '}' :: r) = .ok (none, '}' :: r) :=
      nextKey_eq_none_iff.2 ⟨blanks, r, rfl, before, rfl⟩
    rw [List.append_assoc, List.singleton_append, readFields, hnext]
  | @item first separator body rest member members before mem rest_mem ih =>
    obtain ⟨turns, rfl⟩ : ∃ k, turns = k + 1 := ⟨turns - 1, by omega⟩
    rw [List.foldlM_cons, Option.bind_eq_bind, Option.bind_eq_some_iff] at hadd
    obtain ⟨draft₁, hfirst, hadd⟩ := hadd
    rw [Member.add, Option.ite_none_left_eq_some] at hfirst
    obtain ⟨hhas, heq⟩ := hfirst
    cases heq
    obtain @⟨name, key, blanks, value, _, key_mem, behind, value_mem⟩ := mem
    have hlength : rest.length < turns := by
      simp at hturns
      omega
    have hnext : nextKey first (separator ++ (key ++ (blanks ++ ':' :: (value ++ (rest ++ r)))))
        = .ok (some name, blanks ++ ':' :: (value ++ (rest ++ r))) :=
      nextKey_eq_some_iff.2 ⟨separator, key, rfl, before, key_mem⟩
    have hbody : separator ++ (key ++ (blanks ++ ':' :: value) ++ rest) ++ r
        = separator ++ (key ++ (blanks ++ ':' :: (value ++ (rest ++ r)))) := by simp
    -- the key decides whether the value is read as that of a field or passed over
    rw [hbody, readFields, hnext]
    cases value_mem with
    | @known field _ _ mem =>
      have hread : (readColon (blanks ++ ':' :: (value ++ (rest ++ r)))).bind
          (fun ((), rest) => draft.readField field rest) = .ok (member.put draft, rest ++ r) :=
        readColon_bind_eq_ok_iff.2 ⟨blanks, _, rfl, behind,
          readField_eq_ok_iff.2 ⟨value, member, rfl, mem, rfl⟩⟩
      rw [field?_of_fieldText mem, Option.any_some] at hhas
      simp only [ofName?_name, hread]
      rw [if_neg hhas]
      exact ih hadd hlength
    | other unknown mem =>
      have hread : (readColon (blanks ++ ':' :: (value ++ (rest ++ r)))).bind
          (fun ((), rest) => skipValue rest) = .ok ((), rest ++ r) :=
        readColon_bind_eq_ok_iff.2 ⟨blanks, _, rfl, behind,
          skipValue_append mem (rest_mem.endsNumber (.inr rfl) r)⟩
      simp only [unknown, hread]
      exact ih hadd hlength

/-! ## Lists -/

/-- Blanks in front of a value may be counted as part of what separates it. -/
theorem FieldText.exists_cons {field : Field} {body : List Char} {member : Member}
    (h : FieldText field body member) : ∃ blanks c rest, body = blanks ++ c :: rest
      ∧ Blanks blanks ∧ isSpace c = false ∧ c ≠ ']' ∧ FieldText field (c :: rest) member := by
  cases h with
  | qualifiedName string =>
    obtain ⟨blanks, rest, rfl, hblanks, hrest⟩ := string.exists_cons
    exact ⟨blanks, '"', rest, rfl, hblanks, by decide, by decide, .qualifiedName hrest⟩
  | entryName string =>
    obtain ⟨blanks, rest, rfl, hblanks, hrest⟩ := string.exists_cons
    exact ⟨blanks, '"', rest, rfl, hblanks, by decide, by decide, .entryName hrest⟩
  | content string =>
    obtain ⟨blanks, rest, rfl, hblanks, hrest⟩ := string.exists_cons
    exact ⟨blanks, '"', rest, rfl, hblanks, by decide, by decide, .content hrest⟩
  | mapping value =>
    cases value with
    | @null blanks before =>
      exact ⟨blanks, 'n', ['u', 'l', 'l'], rfl, before, by decide, by decide,
        .mapping (@MappingText.null [] blanks_nil)⟩
    | integers integers =>
      obtain ⟨blanks, items, rfl, hblanks, hitems⟩ := integers
      exact ⟨blanks, '[', items, rfl, hblanks, by decide, by decide,
        .mapping (.integers ⟨[], items, rfl, blanks_nil, hitems⟩)⟩

theorem exists_of_readElements {fields : List Field} {read : Nat}
    (h : readElements fields read draft s = .ok (draft', r)) {a : Unit} {r' : List Char}
    (hclose : closeList r = .ok (a, r')) :
    ∃ body members, s = body ++ r' ∧ ElementsText fields (read = 0) body members
      ∧ draft' = members.foldl Member.put draft := by
  induction fields generalizing read draft s with
  | nil =>
    cases h
    obtain ⟨_, rfl, blanks, rfl, hblanks⟩ := (reads_closeList ..).1 hclose
    exact ⟨_, [], rfl, .close hblanks, rfl⟩
  | cons field fields ih =>
    rw [readElements] at h
    split at h
    case h_1 => cases h
    case h_2 rest hnext =>
      obtain ⟨separator, _, _, rfl, hseparator, -⟩ := nextElement_eq_true_iff.1 hnext
      split at h
      case h_1 => cases h
      case h_2 draft₁ after hread =>
        obtain ⟨body, member, rfl, hmember, rfl⟩ := readField_eq_ok_iff.1 hread
        obtain ⟨items, members, rfl, hitems, rfl⟩ := ih h
        exact ⟨separator ++ (body ++ items), member :: members, by simp,
          .next hseparator hmember hitems, rfl⟩
    case h_3 rest hnext =>
      obtain ⟨blanks, rest, rfl, hblanks, rfl⟩ := nextElement_eq_false_iff.1 hnext
      split at h
      case isFalse => simp at h
      case isTrue hfield =>
        cases h
        rw [closeList_cons] at hclose
        cases hclose
        -- only the mapping may be missing
        subst hfield
        exact ⟨blanks ++ [']'], [], by simp, .short hblanks, rfl⟩

theorem readElements_append {fields : List Field} {first : Bool} {body : List Char}
    {members : List Member} (h : ElementsText fields first body members) {read : Nat}
    (hread : decide (read = 0) = first) (draft : Draft) (r : List Char) :
    ∃ r', readElements fields read draft (body ++ r) = .ok (members.foldl Member.put draft, r')
      ∧ closeList r' = .ok ((), r) := by
  induction h generalizing read draft with
  | @close first blanks before =>
    exact ⟨blanks ++ [']'] ++ r, rfl, (reads_closeList ..).2 ⟨_, rfl, blanks, rfl, before⟩⟩
  | @short fields first blanks before =>
    have hnext : nextElement first (blanks ++ [']'] ++ r) = .ok (false, ']' :: r) :=
      nextElement_eq_false_iff.2 ⟨blanks, r, by simp, before, rfl⟩
    refine ⟨']' :: r, ?_, closeList_cons r⟩
    rw [readElements, hread, hnext]
    rfl
  | @next fields field first separator body rest member members before mem rest_mem ih =>
    -- the reader stops behind the blanks in front of the value
    obtain ⟨blanks, c, body', rfl, hblanks, hc, hclosing, hmember⟩ := mem.exists_cons
    have hnext : nextElement first (separator ++ (blanks ++ c :: body' ++ rest) ++ r)
        = .ok (true, c :: body' ++ (rest ++ r)) :=
      nextElement_eq_true_iff.2 ⟨separator ++ blanks, c, body' ++ (rest ++ r), by simp,
        before.append_blanks hblanks, rfl, hc, hclosing⟩
    have hvalue : draft.readField field (c :: body' ++ (rest ++ r))
        = .ok (member.put draft, rest ++ r) :=
      readField_eq_ok_iff.2 ⟨c :: body', member, rfl, hmember, rfl⟩
    obtain ⟨r', hrest, hclose⟩ := ih (decide_eq_false (Nat.succ_ne_zero read)) (member.put draft)
    refine ⟨r', ?_, hclose⟩
    rw [readElements, hread, hnext]
    simp only [hvalue]
    exact hrest

/-- In a list no field comes twice. -/
theorem foldlM_add_of_elementsText {body : List Char} {members : List Member}
    (h : ElementsText [.qualifiedName, .entryName, .content, .mapping] true body members) :
    members.foldlM Member.add .empty = some (members.foldl Member.put .empty) := by
  cases h with
  | next _ qualifiedName h =>
    cases qualifiedName
    cases h with
    | next _ entryName h =>
      cases entryName
      cases h with
      | next _ content h =>
        cases content
        cases h with
        | short => rfl
        | next _ mapping h =>
          cases mapping
          cases h
          rfl

theorem complete_foldl_put_iff {body : List Char} {members : List Member}
    (h : ElementsText [.qualifiedName, .entryName, .content, .mapping] true body members) :
    (members.foldl Member.put .empty).complete = .ok unit ↔ Declares members unit := by
  rw [← exists_complete_iff, foldlM_add_of_elementsText h]
  constructor
  · intro hcomplete
    exact ⟨_, rfl, hcomplete⟩
  · rintro ⟨_, heq, hcomplete⟩
    cases heq
    exact hcomplete

/-! ## Units -/

theorem readObject_eq_ok_iff : readObject s = .ok (unit, r) ↔
    ∃ items members, s = items ++ r ∧ Items MemberText '}' true items members
      ∧ Declares members unit := by
  rw [readObject]
  constructor
  · intro h
    split at h
    case h_1 => cases h
    case h_2 draft rest hread =>
      obtain ⟨items, rest, members, rfl, rfl, hitems, hadd⟩ := exists_of_readFields hread
      split at h
      case h_2 => simp at h
      case h_1 unit' hcomplete =>
        cases h
        exact ⟨items, members, rfl, hitems, exists_complete_iff.1 ⟨draft, hadd, hcomplete⟩⟩
  · rintro ⟨items, members, rfl, hitems, hdeclares⟩
    obtain ⟨draft, hadd, hcomplete⟩ := exists_complete_iff.2 hdeclares
    have hread : readFields ((items ++ r).length + 1) true .empty (items ++ r)
        = .ok (draft, '}' :: r) :=
      readFields_append hitems hadd (by rw [List.length_append]; omega)
    simp only [hread, hcomplete]
    rfl

theorem readList_eq_ok_iff : readList s = .ok (unit, r) ↔
    ∃ items members, s = items ++ r
      ∧ ElementsText [.qualifiedName, .entryName, .content, .mapping] true items members
      ∧ Declares members unit := by
  rw [readList]
  constructor
  · intro h
    split at h
    case h_1 => cases h
    case h_2 draft rest hread =>
      split at h
      case h_1 => cases h
      case h_2 rest' hclose =>
        obtain ⟨items, members, rfl, hitems, rfl⟩ := exists_of_readElements hread hclose
        split at h
        case h_2 => simp at h
        case h_1 unit' hcomplete =>
          cases h
          exact ⟨items, members, rfl, hitems, (complete_foldl_put_iff hitems).1 hcomplete⟩
  · rintro ⟨items, members, rfl, hitems, hdeclares⟩
    obtain ⟨rest, hread, hclose⟩ := readElements_append hitems (decide_eq_true rfl) .empty r
    have hcomplete := (complete_foldl_put_iff hitems).2 hdeclares
    simp only [hread, hclose, hcomplete]

/-- A unit is read from exactly the texts that spell it. -/
theorem reads_read : Reads read UnitText := by
  intro s unit r
  constructor
  · intro h
    rw [read.eq_def] at h
    split at h
    case h_1 rest hskip =>
      obtain ⟨-, blanks, hblanks, rfl⟩ := skipSpace_eq_cons_iff.1 hskip
      obtain ⟨items, members, rfl, hitems, hdeclares⟩ := readObject_eq_ok_iff.1 h
      exact ⟨_, by simp, .inl ⟨blanks, items, members, rfl, hblanks, hitems, hdeclares⟩⟩
    case h_2 rest hskip =>
      obtain ⟨-, blanks, hblanks, rfl⟩ := skipSpace_eq_cons_iff.1 hskip
      obtain ⟨items, members, rfl, hitems, hdeclares⟩ := readList_eq_ok_iff.1 h
      exact ⟨_, by simp, .inr ⟨blanks, items, members, rfl, hblanks, hitems, hdeclares⟩⟩
    case h_3 => exact absurd h failType_ne_ok
  · rintro ⟨_, rfl, ⟨blanks, items, members, rfl, hblanks, hitems, hdeclares⟩
      | ⟨blanks, items, members, rfl, hblanks, hitems, hdeclares⟩⟩
    · have hread := (@readObject_eq_ok_iff (items ++ r) r unit).2
        ⟨items, members, rfl, hitems, hdeclares⟩
      rw [read, List.append_assoc, List.cons_append, skipSpace_append_cons hblanks (by decide)]
      exact hread
    · have hread := (@readList_eq_ok_iff (items ++ r) r unit).2
        ⟨items, members, rfl, hitems, hdeclares⟩
      rw [read, List.append_assoc, List.cons_append, skipSpace_append_cons hblanks (by decide)]
      exact hread

/-- Exactly the texts that spell a unit are accepted. -/
theorem parse_eq_ok_iff {text : String} : parse text = .ok unit ↔ Spells text unit := by
  rw [parse]
  constructor
  · intro h
    split at h
    case h_1 => cases h
    case h_2 unit' rest hread =>
      obtain ⟨body, htext, hbody⟩ := (reads_read ..).1 hread
      obtain ⟨_, hend, heq⟩ := map_eq_ok_iff.1 h
      cases heq
      exact ⟨body, rest, htext, hbody, readEnd_eq_ok_iff.1 hend⟩
  · rintro ⟨body, blanks, htext, hbody, hblanks⟩
    have hread : read text.toList = .ok (unit, blanks) := (reads_read ..).2 ⟨body, htext, hbody⟩
    simp only [hread]
    exact map_eq_ok_iff.2 ⟨(), readEnd_eq_ok_iff.2 hblanks, rfl⟩

/-! ## Blanks around a unit -/

theorem ElementsText.exists_append {fields : List Field} {first : Bool} {body : List Char}
    {members : List Member} (h : ElementsText fields first body members) :
    ∃ front, body = front ++ [']'] := by
  induction h with
  | @close _ blanks | @short _ _ blanks => exact ⟨blanks, rfl⟩
  | @next _ _ _ separator body _ _ _ _ _ _ ih =>
    obtain ⟨front, rfl⟩ := ih
    exact ⟨separator ++ (body ++ front), by simp⟩

/-- A unit ends with a bracket. -/
theorem UnitText.exists_append {body : List Char} (h : UnitText body unit) :
    ∃ front c, body = front ++ [c] ∧ isSpace c = false := by
  rcases h with ⟨blanks, _, _, rfl, _, hitems, _⟩ | ⟨blanks, _, _, rfl, _, hitems, _⟩
  · obtain ⟨front, rfl⟩ := hitems.exists_append
    exact ⟨blanks ++ '{' :: front, '}', by simp, by decide⟩
  · obtain ⟨front, rfl⟩ := hitems.exists_append
    exact ⟨blanks ++ '[' :: front, ']', by simp, by decide⟩

theorem spells_append_iff {start : List Char} {c : Char} (hc : isSpace c = true) :
    Spells (String.ofList (start ++ [c])) unit ↔ Spells (String.ofList start) unit := by
  simp only [Spells, String.toList_ofList]
  constructor
  · rintro ⟨body, blanks, htext, hbody, hblanks⟩
    obtain rfl | ⟨blanks, last, rfl⟩ := List.eq_nil_or_concat blanks
    · -- the unit itself does not end with a blank
      obtain ⟨front, last, rfl, hlast⟩ := hbody.exists_append
      rw [List.append_nil] at htext
      obtain ⟨-, heq⟩ := List.append_inj' htext rfl
      cases heq
      rw [hc] at hlast
      cases hlast
    · rw [List.concat_eq_append, ← List.append_assoc] at htext
      obtain ⟨rfl, -⟩ := List.append_inj' htext rfl
      exact ⟨body, blanks, rfl, hbody, fun c hc => hblanks c (by simp [hc])⟩
  · rintro ⟨body, blanks, rfl, hbody, hblanks⟩
    refine ⟨body, blanks ++ [c], by simp, hbody, hblanks.append ?_⟩
    simpa [Blanks] using hc

/-- A blank text spells no unit. -/
theorem Spells.exists_mem {text : String} (h : Spells text unit) :
    ∃ c ∈ text.toList, Text.isBlank c = false := by
  obtain ⟨body, blanks, htext, hbody, -⟩ := h
  rw [htext]
  rcases hbody with ⟨blanks, items, _, rfl, _⟩ | ⟨blanks, items, _, rfl, _⟩
  · exact ⟨'{', by simp, by decide⟩
  · exact ⟨'[', by simp, by decide⟩

end Reline.ClassUnit
