/-
  Reline.Proofs.Sink.Directory

  Where a directory sink writes.

  An entry name without two dots is made of names that lead straight down, unless
  a link stands on their way. So if there are no links below the root, a text is
  written to the one place that its names make behind the root's, and only the
  directories on the way there are created. Nothing is removed, and no link comes
  into being, so that this holds for the next text, too. A text stays in its file
  until one comes for that file, unless the file is a device.

  The root need not be there. It has a place all the same: the one that its path
  leads to when the missing directories are created.

  Main statement: `DirectorySink.staysBelow`.
-/

import Reline.Proofs.FileSystem.Joining
import Reline.Proofs.Sink.Calls
import Reline.Proofs.Sink.Zip
import Reline.Sink.Directory

namespace Reline

namespace FileSystem

variable {fs fs' : FileSystem} {path : String}

/-! ## New directories -/

/-- A file system with more directories, at places of some kind. -/
structure Furnished (fs fs' : FileSystem) (P : Location → Prop) : Prop where
  files : fs'.files = fs.files
  current : fs'.current = fs.current
  keeps : ∀ l node, fs.node? l = some node → fs'.node? l = some node
  fresh : ∀ l node, fs.node? l = none → fs'.node? l = some node →
    (∃ mode, node = .directory mode) ∧ P l

theorem Furnished.sameLinks {P : Location → Prop} (h : Furnished fs fs' P) : SameLinks fs fs' := by
  refine fun l goal => ⟨fun hlink => ?_, h.keeps l _⟩
  cases hnode : fs.node? l with
  | none =>
    obtain ⟨⟨mode, heq⟩, -⟩ := h.fresh l _ hnode hlink
    contradiction
  | some node => exact (h.keeps l node hnode).symm.trans hlink

theorem Furnished.startOf_eq {P : Location → Prop} (h : Furnished fs fs' P) (path : String) :
    fs'.startOf path = fs.startOf path := by
  rw [startOf, startOf, h.current]

/-- Creating directories creates such to which the first names of the path lead. -/
theorem furnished_createDirectories (fs : FileSystem) (path : String) :
    Furnished fs (fs.createDirectories path).1 fun l =>
      ∃ k, Walks fs (fs.startOf path) ((Path.names path).take k) l := by
  let Made (made : FileSystem) : Prop := Furnished fs made fun l =>
    ∃ k, Walks fs (fs.startOf path) ((Path.names path).take k) l
  have hstart : Made fs :=
    ⟨rfl, rfl, fun _ _ h => h, fun l node hnone hnode => nomatch hnone.symm.trans hnode⟩
  -- each directory that is created stands at the end of some first names of the path
  refine @createDirectories_induction fs path Made (fun made made' above habove hmade hcreate => ?_)
    hstart
  obtain ⟨there, slash, hvacant, rfl⟩ := exists_of_createDirectory hcreate
  have hnone := (mem_way_of_vacant hvacant).2
  have hne : there ≠ [] := by
    rintro rfl
    contradiction
  have hnode (l : Location) : (made.furnish there).node? l
      = if l = there then some (.directory newDirectoryMode) else made.node? l :=
    node?_putNode hne _ l
  refine ⟨hmade.files, hmade.current, fun l node hl => ?_, fun l node hl hl' => ?_⟩
  · have hstood := hmade.keeps l node hl
    rw [hnode, if_neg, hstood]
    rintro rfl
    exact nomatch hnone.symm.trans hstood
  · rw [hnode] at hl'
    split at hl'
    case isTrue heq =>
      cases hl'
      refine ⟨⟨_, rfl⟩, ?_⟩
      obtain ⟨k, hnames, habsolute⟩ := habove.exists_take
      have hwalks := walksTo_of_resolve hvacant (.inr ⟨slash, rfl⟩)
      rw [WalksTo, hmade.sameLinks.walks_iff, hmade.startOf_eq, startOf, habsolute, hnames]
        at hwalks
      exact ⟨k, heq ▸ hwalks⟩
    case isFalse => exact hmade.fresh l node hl hl'

/-! ## A new text -/

/-- Writing a file changes nothing, or the one file at the place that the path leads to. -/
theorem putContents_cases (hfiles : WellFormed fs) (path : String) (bytes : Bytes) :
    ((fs.putContents path bytes).1 = fs ∧ (fs.putContents path bytes).2 ≠ .ok ())
      ∨ ∃ location id created, Creates fs created path location id
        ∧ Refilled created (fs.putContents path bytes).1 id
        ∧ ((fs.putContents path bytes).2 = .ok () →
          ((fs.putContents path bytes).1.data id).medium = .disk →
            ((fs.putContents path bytes).1.data id).bytes.toList = bytes) := by
  rw [putContents]
  cases hcreate : fs.createFile path with
  | error e => exact .inl ⟨rfl, nofun⟩
  | ok pair =>
    obtain ⟨id, created⟩ := pair
    obtain ⟨location, hcreates⟩ := exists_creates hfiles hcreate
    refine .inr ⟨location, id, created, hcreates, ?_⟩
    dsimp only
    cases hwrite : created.write id 0 bytes with
    | error e => exact ⟨.refl .., nofun⟩
    | ok written =>
      refine ⟨refilled_write hwrite, fun _ hdisk => ?_⟩
      dsimp only at hdisk ⊢
      have hmedium : (created.data id).medium = .disk := by
        rw [write] at hwrite
        split at hwrite
        case h_1 heq => exact heq
        case h_2 heq =>
          cases hwrite
          exact hdisk
        case h_3 =>
          split at hwrite
          · cases hwrite
            exact hdisk
          · contradiction
      -- the file is empty after its creation, so it holds just what was written
      obtain ⟨written', hwrite', -, hholds⟩ :=
        (holds_of_createFile hfiles hcreate hmedium).write_end bytes
      cases hwrite.symm.trans hwrite'
      exact hholds.bytes

/-- Whether a place lies on the way to a root: leading names of its path lead there. -/
def OnWay (fs : FileSystem) (root : String) (l : Location) : Prop :=
  ∃ k, Walks fs (fs.startOf root) ((Path.names root).take k) l

/-- Whether no link stands at the place of a root or below it. -/
def NoLinksBelow (fs : FileSystem) (root : String) : Prop :=
  ∀ place, fs.WalksTo root place → NoLinksFrom fs place

/-- It is enough that no link is listed. -/
theorem noLinksBelow_of_forall (h : ∀ pair ∈ fs.nodes, ∀ goal, pair.2 ≠ .link goal)
    (root : String) : NoLinksBelow fs root := by
  intro place _ l goal _ hlink
  have hroot : l ≠ [] := by
    rintro rfl
    exact nomatch fs.node?_root.symm.trans hlink
  exact h _ (mem_nodes_of_node? hlink hroot) goal rfl

/-- What may become of a file system when a text is stored under names below a root. -/
structure Stored (fs fs' : FileSystem) (root : String) (names : List String) : Prop where
  current : fs'.current = fs.current
  size : fs.files.size ≤ fs'.files.size
  /-- Everything stays where it was. -/
  keeps : ∀ l node, fs.node? l = some node → fs'.node? l = some node
  /-- What is new is a directory, on the way to the root or from there to the file, or the file. -/
  fresh : ∀ l node, fs.node? l = none → fs'.node? l = some node →
    ((∃ mode, node = .directory mode) ∧ (fs.OnWay root l
        ∨ ∃ place k, fs.WalksTo root place ∧ k < names.length ∧ l = place ++ names.take k))
      ∨ ∃ place id, fs.WalksTo root place ∧ l = place ++ names ∧ node = .file id
        ∧ fs.files.size ≤ id
  /-- No data changes but that of the file. -/
  data : ∀ id < fs.files.size, fs'.data id = fs.data id
    ∨ ∃ place, fs.WalksTo root place ∧ fs.node? (place ++ names) = some (.file id)

/-- Whether the file under names below a root holds a text, unless it is a device. -/
def HoldsText (fs : FileSystem) (root : String) (names : List String) (content : String) : Prop :=
  ∃ place id, fs.WalksTo root place ∧ fs.node? (place ++ names) = some (.file id)
    ∧ ((fs.data id).medium = .disk → (fs.data id).bytes.toList = Text.Utf8.encode content)

/-- Whether names below a root are names of one file. -/
def SameFile (fs : FileSystem) (root : String) (names names' : List String) : Prop :=
  ∃ place id, fs.WalksTo root place ∧ fs.node? (place ++ names) = some (.file id)
    ∧ fs.node? (place ++ names') = some (.file id)

variable {root : String} {names : List String}

/-- Names below a root lead straight down from its place, which the names of the root lead to. -/
theorem exists_place_of_walks (hroot : NoLinksBelow fs root)
    (hentries : ∀ name ∈ names, IsEntry name) {l : Location}
    (h : Walks fs (fs.startOf root) (Path.names root ++ names) l) :
    ∃ place, fs.WalksTo root place ∧ l = place ++ names := by
  obtain ⟨place, hplace, hbelow⟩ := h.split
  exact ⟨place, hplace, hbelow.eq_append (hroot place hplace) (List.prefix_refl _) hentries⟩

/-- A place to which some of the names of a root and names below it lead, but not all, lies on the
way to the root or below it. -/
theorem onWay_or_below (hroot : NoLinksBelow fs root) (hentries : ∀ name ∈ names, IsEntry name)
    {k : Nat} (hk : k < (Path.names root ++ names).length ∨ names = []) {l : Location}
    (h : Walks fs (fs.startOf root) ((Path.names root ++ names).take k) l) :
    fs.OnWay root l ∨ ∃ place k, fs.WalksTo root place ∧ k < names.length
      ∧ l = place ++ names.take k := by
  rw [List.take_append] at h
  by_cases hshort : k ≤ (Path.names root).length ∨ names = []
  · -- no names below the root
    have hnone : names.take (k - (Path.names root).length) = [] := by
      rcases hshort with hshort | rfl
      · rw [Nat.sub_eq_zero_of_le hshort, List.take_zero]
      · exact List.take_nil
    rw [hnone, List.append_nil] at h
    exact .inl ⟨k, h⟩
  · rw [not_or] at hshort
    rw [List.take_of_length_le (by omega)] at h
    obtain ⟨place, hplace, heq⟩ := exists_place_of_walks hroot
      (fun name hname => hentries name (List.mem_of_mem_take hname)) h
    have hlength := hk.resolve_right hshort.2
    rw [List.length_append] at hlength
    exact .inr ⟨place, _, hplace, by omega, heq⟩

theorem Stored.sameLinks (h : Stored fs fs' root names) : SameLinks fs fs' := by
  refine fun l goal => ⟨fun hlink => ?_, h.keeps l _⟩
  cases hnode : fs.node? l with
  | none =>
    rcases h.fresh l _ hnode hlink with ⟨⟨mode, heq⟩, -⟩ | ⟨place, id, -, -, heq, -⟩ <;>
      contradiction
  | some node => exact (h.keeps l node hnode).symm.trans hlink

theorem Stored.walksTo_iff (h : Stored fs fs' root names) {place : Location} :
    fs'.WalksTo root place ↔ fs.WalksTo root place := by
  rw [WalksTo, WalksTo, h.sameLinks.walks_iff, startOf, startOf, h.current]

theorem Stored.noLinksBelow (h : Stored fs fs' root names) (hroot : NoLinksBelow fs root) :
    NoLinksBelow fs' root := fun place hplace l goal hbelow hlink =>
  hroot place (h.walksTo_iff.1 hplace) l goal hbelow ((h.sameLinks l goal).1 hlink)

/-- A new file is at the one place where the text is stored. -/
theorem Stored.exists_place_of_new (h : Stored fs fs' root names) (hfiles : WellFormed fs)
    {l : Location} {id : FileId} (hnode : fs'.node? l = some (.file id)) (hnew : fs.files.size ≤ id) :
    ∃ place, fs.WalksTo root place ∧ l = place ++ names := by
  cases hbefore : fs.node? l with
  | some node =>
    cases (h.keeps l node hbefore).symm.trans hnode
    exact absurd (hfiles.data l id hbefore) (Nat.not_lt.2 hnew)
  | none =>
    rcases h.fresh l _ hbefore hnode with ⟨⟨mode, heq⟩, -⟩ | ⟨place, -, hplace, hl, -⟩
    · contradiction
    · exact ⟨place, hplace, hl⟩

theorem Stored.eq_of_sameFile (h : Stored fs fs' root names) (hfiles : WellFormed fs)
    (hnew : ∀ place, fs.WalksTo root place → fs.node? (place ++ names) = none)
    {names' : List String} (hsame : SameFile fs' root names names') : names' = names := by
  obtain ⟨place, id, hplace, hnode, hnode'⟩ := hsame
  rw [h.walksTo_iff] at hplace
  have hid : fs.files.size ≤ id := by
    rcases h.fresh _ _ (hnew place hplace) hnode with ⟨⟨mode, heq⟩, -⟩ | ⟨-, j, -, -, heq, hj⟩
    · contradiction
    · cases heq
      exact hj
  obtain ⟨place', hplace', heq⟩ := h.exists_place_of_new hfiles hnode' hid
  cases hplace.unique hplace'
  exact List.append_cancel_left heq

/-- Storing a text gives the files that were there no other names. -/
theorem SameFile.of_stored {names' names'' : List String} {content : String}
    (hsame : SameFile fs' root names names'') (hholds : HoldsText fs root names content)
    (hfiles : WellFormed fs) (h : Stored fs fs' root names') : SameFile fs root names names'' := by
  obtain ⟨place, id, hplace, hnode, -⟩ := hholds
  obtain ⟨place', id', hplace', hnode', hother⟩ := hsame
  rw [h.walksTo_iff] at hplace'
  cases hplace.unique hplace'
  cases (h.keeps _ _ hnode).symm.trans hnode'
  refine ⟨place, id, hplace, hnode, ?_⟩
  cases hbefore : fs.node? (place ++ names'') with
  | some node => exact (h.keeps _ _ hbefore).symm.trans hother
  | none =>
    rcases h.fresh _ _ hbefore hother with ⟨⟨mode, heq⟩, -⟩ | ⟨-, j, -, -, heq, hj⟩
    · contradiction
    · cases heq
      exact absurd (hfiles.data _ id hnode) (Nat.not_lt.2 hj)

/-- A text stays in its file when another one is stored under names of another file. -/
theorem HoldsText.of_stored {content : String} {names' : List String}
    (h : HoldsText fs root names content) (hfiles : WellFormed fs)
    (hstored : Stored fs fs' root names') (hother : ¬ SameFile fs root names names') :
    HoldsText fs' root names content := by
  obtain ⟨place, id, hplace, hnode, hbytes⟩ := h
  have hsame : fs'.data id = fs.data id := by
    rcases hstored.data id (hfiles.data _ id hnode) with heq | ⟨place', hplace', hnode'⟩
    · exact heq
    · cases hplace.unique hplace'
      exact absurd ⟨place, id, hplace, hnode, hnode'⟩ hother
  exact ⟨place, id, hstored.walksTo_iff.2 hplace, hstored.keeps _ _ hnode, hsame ▸ hbytes⟩

section Making

variable {made created : FileSystem} {P : Location → Prop} {location : Location} {id : FileId}

/-- New directories alone. -/
theorem Furnished.stored (h : Furnished fs made P)
    (hP : ∀ l, P l → fs.OnWay root l ∨ ∃ place k, fs.WalksTo root place ∧ k < names.length
      ∧ l = place ++ names.take k) : Stored fs made root names where
  current := h.current
  size := Nat.le_of_eq (congrArg Array.size h.files).symm
  keeps := h.keeps
  fresh l node hnone hnode := by
    obtain ⟨hdirectory, hplace⟩ := h.fresh l node hnone hnode
    exact .inl ⟨hdirectory, hP l hplace⟩
  data j _ := by
    rw [data, h.files]
    exact .inl rfl

/-- New directories, and then a file. -/
theorem Furnished.stored_of_creates (h : Furnished fs made P)
    (hP : ∀ l, P l → fs.OnWay root l ∨ ∃ place k, fs.WalksTo root place ∧ k < names.length
      ∧ l = place ++ names.take k)
    (hcreates : Creates made created path location id) (hrefilled : Refilled created fs' id)
    {place : Location} (hplace : fs.WalksTo root place) (hlocation : location = place ++ names) :
    Stored fs fs' root names where
  current := hrefilled.current.trans (hcreates.filled.current.trans h.current)
  size := by
    rw [hrefilled.size, ← h.files]
    exact hcreates.grows
  keeps l node hnode := by
    rw [hrefilled.node?_eq]
    exact hcreates.filled.node?_eq (h.keeps l node hnode)
  fresh l node hnone hnode := by
    rw [hrefilled.node?_eq] at hnode
    rcases hcreates.filled.node?_before hnode with hmade | ⟨rfl, rfl, hmade⟩
    · obtain ⟨hdirectory, hthere⟩ := h.fresh l node hnone hmade
      exact .inl ⟨hdirectory, hP l hthere⟩
    · rcases hcreates.leads with ⟨-, hfound⟩ | ⟨-, -, -, rfl⟩
      · exact nomatch hmade.symm.trans hfound
      · exact .inr ⟨place, _, hplace, hlocation, rfl,
          Nat.le_of_eq (congrArg Array.size h.files).symm⟩
  data j hj := by
    have hmade (i : FileId) : made.data i = fs.data i := by rw [data, data, h.files]
    by_cases heq : j = id
    · subst heq
      rcases hcreates.leads with ⟨-, hfound⟩ | ⟨-, -, -, rfl⟩
      · refine .inr ⟨place, hplace, ?_⟩
        cases hnode : fs.node? location with
        | none =>
          obtain ⟨⟨mode, hdirectory⟩, -⟩ := h.fresh location _ hnode hfound
          contradiction
        | some node =>
          rw [← hlocation, hnode, ← h.keeps location node hnode, hfound]
      · rw [h.files] at hj
        exact absurd hj (Nat.lt_irrefl _)
    · rw [hrefilled.others j heq, hcreates.others j heq (by rw [h.files]; exact hj), hmade]
      exact .inl rfl

end Making

end FileSystem

namespace DirectorySink

open FileSystem

variable {fs : FileSystem} {root : String} {names : List String}

/-- The directories above a file under names below a root are on the way to the root or below it. -/
theorem exists_furnished (hroot : NoLinksBelow fs root) (hentries : ∀ name ∈ names, IsEntry name)
    {path : String} (hnames : Path.names path = Path.names root ++ names)
    (habsolute : Path.isAbsolute path = Path.isAbsolute root) :
    ∃ P, Furnished fs (fs.createDirectories ((Path.parent path).getD "")).1 P
      ∧ ∀ l, P l → fs.OnWay root l ∨ ∃ place k, fs.WalksTo root place ∧ k < names.length
        ∧ l = place ++ names.take k := by
  cases hparent : Path.parent path with
  | none =>
    have hnothing : (fs.createDirectories "").1 = fs := rfl
    rw [Option.getD_none, hnothing]
    exact ⟨fun _ => False, ⟨rfl, rfl, fun _ _ h => h, fun l node hnone hnode =>
      nomatch hnone.symm.trans hnode⟩, fun _ hl => hl.elim⟩
  | some above =>
    obtain ⟨hlast, habsolute'⟩ := Path.names_of_parent hparent
    have hstart : fs.startOf above = fs.startOf root := by
      rw [startOf, startOf, habsolute', habsolute]
    refine ⟨_, furnished_createDirectories fs above, ?_⟩
    rintro l ⟨k, hwalks⟩
    rw [hstart, hlast, hnames, List.dropLast_eq_take, List.take_take] at hwalks
    refine onWay_or_below hroot hentries ?_ hwalks
    cases hlength : (Path.names root ++ names).length with
    | zero => exact .inr (List.append_eq_nil_iff.1 (List.eq_nil_of_length_eq_zero hlength)).2
    | succ n => exact .inl (by omega)

/-- What writing a file does once the directories above it are there. -/
theorem write_of_createDirectories {path : String} {made : FileSystem}
    (h : fs.createDirectories ((Path.parent path).getD "") = (made, .ok ())) (content : String) :
    write fs path content = ((made.putContents path (Text.Utf8.encode content)).1,
      (made.putContents path (Text.Utf8.encode content)).2.mapError (.writeFile path)) := by
  rw [write, h]
  dsimp only
  rcases made.putContents path (Text.Utf8.encode content) with ⟨fs', e | done⟩ <;> rfl

/-- Writing a file under names below a root stores it there. -/
theorem stored_write (hfiles : WellFormed fs) (hroot : NoLinksBelow fs root)
    (hentries : ∀ name ∈ names, IsEntry name) {path : String}
    (hnames : Path.names path = Path.names root ++ names)
    (habsolute : Path.isAbsolute path = Path.isAbsolute root) (content : String) :
    Stored fs (write fs path content).1 root names ∧ WellFormed (write fs path content).1
      ∧ ((write fs path content).2 = .ok () →
        HoldsText (write fs path content).1 root names content) := by
  obtain ⟨P, hfurnished, hP⟩ := exists_furnished hroot hentries hnames habsolute
  have hmade := wellFormed_createDirectories hfiles ((Path.parent path).getD "")
  rcases hdirectories : fs.createDirectories ((Path.parent path).getD "") with ⟨made, e | ⟨⟩⟩
  · rw [hdirectories] at hfurnished hmade
    rw [write, hdirectories]
    exact ⟨hfurnished.stored hP, hmade, nofun⟩
  · rw [hdirectories] at hfurnished hmade
    rw [write_of_createDirectories hdirectories]
    dsimp only at hfurnished hmade ⊢
    have hok {result : Except IoError Unit} (h : result.mapError (Error.writeFile path) = .ok ()) :
        result = .ok () := by
      cases result with
      | error e => contradiction
      | ok done => rfl
    rcases putContents_cases hmade path (Text.Utf8.encode content) with
      ⟨hsame, hfails⟩ | ⟨location, id, created, hcreates, hrefilled, hholds⟩
    · rw [hsame]
      exact ⟨hfurnished.stored hP, hmade, fun hresult => absurd (hok hresult) hfails⟩
    · -- the file is at the place behind that of the root
      have hwalks : Walks fs (fs.startOf root) (Path.names root ++ names) location := by
        have hthere := hcreates.walksTo
        rw [WalksTo, hfurnished.sameLinks.walks_iff, hfurnished.startOf_eq, startOf, habsolute,
          hnames] at hthere
        exact hthere
      obtain ⟨place, hplace, hlocation⟩ := exists_place_of_walks hroot hentries hwalks
      have hstored := hfurnished.stored_of_creates hP hcreates hrefilled hplace hlocation
      refine ⟨hstored, hrefilled.wellFormed (hcreates.wellFormed hmade), fun hresult => ?_⟩
      refine ⟨place, id, hstored.walksTo_iff.2 hplace, ?_, hholds (hok hresult)⟩
      rw [hrefilled.node?_eq, ← hlocation]
      exact hcreates.filled.node?_location

/-! ## Entry names -/

/-- Leading slashes name nothing. -/
theorem names_relative (entryName : String) :
    Path.names (relative entryName) = Path.names entryName := by
  have hdrop (chars : List Char) :
      namesOf ((Path.splitSlash (chars.dropWhile (· = '/'))).map String.ofList)
        = namesOf ((Path.splitSlash chars).map String.ofList) := by
    induction chars with
    | nil => rfl
    | cons c chars ih =>
      by_cases hslash : c = '/'
      · subst hslash
        obtain ⟨first, rest, hchars, hsplit⟩ := Path.exists_splitSlash_cons '/' chars
        have hskip : ('/' :: chars).dropWhile (fun c => decide (c = '/'))
            = chars.dropWhile fun c => decide (c = '/') := List.dropWhile_cons_of_pos rfl
        rw [hskip, ih, hsplit, if_pos rfl, hchars]
        rfl
      · rw [List.dropWhile_cons_of_neg (by simpa using hslash)]
  have htext : (relative entryName).toList = entryName.toList.dropWhile (· = '/') :=
    String.toList_ofList
  rw [Path.names_eq_namesOf, Path.segments, htext, hdrop]
  rfl

theorem isAbsolute_relative (entryName : String) :
    Path.isAbsolute (relative entryName) = false := by
  have htext : (relative entryName).toList = entryName.toList.dropWhile (· = '/') :=
    String.toList_ofList
  rw [Path.isAbsolute, htext, decide_eq_false_iff_not]
  intro hhead
  have hnot := List.head?_dropWhile_not (fun c : Char => decide (c = '/')) entryName.toList
  rw [hhead] at hnot
  simp at hnot

/-- Two dots are one of the names of a path if they are one of its segments. -/
theorem leadsUp_relative (entryName : String) :
    leadsUp (relative entryName) = true ↔ ".." ∈ Path.segments entryName := by
  rw [leadsUp, names_relative, List.contains_iff_mem, Path.names_eq_namesOf, namesOf,
    List.mem_filter]
  exact and_iff_left (by decide)

/-- Without two dots, the names of an entry name are looked up in a directory each. -/
theorem isEntry_of_mem_names {entryName : String} (h : ".." ∉ Path.segments entryName) :
    ∀ name ∈ Path.names entryName, IsEntry name := by
  intro name hname
  obtain ⟨hsegment, hneutral⟩ := List.mem_filter.1 hname
  refine ⟨by simpa using hneutral, ?_⟩
  rintro rfl
  exact h hsegment

variable {sink : DirectorySink} {entryName : String}

theorem save_of_outside (h : ".." ∈ Path.segments entryName) (fs : FileSystem) (content : String) :
    sink.save fs entryName content = (fs, .error (.outside sink.root entryName)) := by
  rw [save, if_pos ((leadsUp_relative entryName).2 h)]

/-- A text is stored under the names of its entry name. -/
theorem stored_save (hfiles : WellFormed fs) (hroot : NoLinksBelow fs sink.root)
    (h : ".." ∉ Path.segments entryName) (content : String) :
    Stored fs (sink.save fs entryName content).1 sink.root (Path.names entryName)
      ∧ WellFormed (sink.save fs entryName content).1
      ∧ ((sink.save fs entryName content).2 = .ok () →
        HoldsText (sink.save fs entryName content).1 sink.root (Path.names entryName) content) := by
  have hup : ¬ leadsUp (relative entryName) = true := h ∘ (leadsUp_relative entryName).1
  rw [save, if_neg hup]
  refine stored_write hfiles hroot (isEntry_of_mem_names h) ?_ ?_ content
  · rw [Path.names_join, names_relative]
  · exact Path.isAbsolute_join sink.root (isAbsolute_relative entryName)

/-! ## Calls -/

theorem answer_save (use : InUse DirectorySink) (qualifiedName entryName content : String) :
    use.answer (.save qualifiedName entryName content)
      = (use.sink, use.world.withFiles (use.sink.save use.world.files entryName content).1,
        (use.sink.save use.world.files entryName content).2.mapError Error.failure) := by
  rw [InUse.answer, TextSink.save, instTextSink]

theorem answer_close (use : InUse DirectorySink) :
    use.answer .close = (use.sink, use.world, .ok ()) := rfl

/-- Whether a sink is in use below whose root there are no links. -/
structure Confined (sink : DirectorySink) (use : InUse DirectorySink) : Prop where
  same : use.sink = sink
  wellFormed : WellFormed use.world.files
  noLinks : NoLinksBelow use.world.files sink.root

/-- A text is refused, or stored. -/
theorem Confined.save {use : InUse DirectorySink} (h : Confined sink use)
    (qualifiedName entryName content : String) :
    (".." ∈ Path.segments entryName → use.answer (.save qualifiedName entryName content)
        = (sink, use.world, .error (Error.outside sink.root entryName).failure))
      ∧ (".." ∉ Path.segments entryName → ∃ fs' answer,
        use.answer (.save qualifiedName entryName content)
            = (sink, use.world.withFiles fs', answer)
          ∧ Stored use.world.files fs' sink.root (Path.names entryName) ∧ WellFormed fs'
          ∧ (answer = .ok () → HoldsText fs' sink.root (Path.names entryName) content)) := by
  obtain ⟨hsink, hfiles, hroot⟩ := h
  rw [answer_save, hsink]
  refine ⟨fun hup => ?_, fun hdown => ?_⟩
  · rw [save_of_outside hup]
    rfl
  · obtain ⟨hstored, hfiles', hholds⟩ := stored_save hfiles hroot hdown content
    refine ⟨_, _, rfl, hstored, hfiles', fun hok => hholds ?_⟩
    cases hresult : (sink.save use.world.files entryName content).2 with
    | error e =>
      rw [hresult] at hok
      contradiction
    | ok done => rfl

/-- The assumptions about the root stay true. -/
theorem Confined.call {use : InUse DirectorySink} (h : Confined sink use) (call : SinkCall) :
    Confined sink (use.call call) := by
  cases call with
  | close =>
    rw [InUse.call, answer_close]
    exact ⟨h.same, h.wellFormed, h.noLinks⟩
  | save qualifiedName entryName content =>
    obtain ⟨hrefused, hstores⟩ := h.save qualifiedName entryName content
    by_cases hup : ".." ∈ Path.segments entryName
    · rw [InUse.call, hrefused hup]
      exact ⟨rfl, h.wellFormed, h.noLinks⟩
    · obtain ⟨fs', answer, hanswer, hstored, hfiles, -⟩ := hstores hup
      rw [InUse.call, hanswer]
      exact ⟨rfl, hfiles, hstored.noLinksBelow h.noLinks⟩

/-- A text stays in its file until one comes for that file. -/
theorem Confined.holdsText_after {use : InUse DirectorySink} (h : Confined sink use)
    {content : String} (hholds : HoldsText use.world.files sink.root names content)
    {later : List SinkCall} (hothers : ∀ qualifiedName entryName text,
      .save qualifiedName entryName text ∈ later →
        ¬ SameFile use.world.files sink.root names (Path.names entryName)) :
    HoldsText (use.after later).world.files sink.root names content := by
  induction later generalizing use with
  | nil => exact hholds
  | cons call later ih =>
    have hlater := fun q n c hmem => hothers q n c (List.mem_cons_of_mem _ hmem)
    rw [InUse.after, List.foldl_cons]
    cases call with
    | close => exact ih (h.call .close) hholds hlater
    | save qualifiedName entryName text =>
      have hnext := h.call (.save qualifiedName entryName text)
      obtain ⟨hrefused, hstores⟩ := h.save qualifiedName entryName text
      by_cases hup : ".." ∈ Path.segments entryName
      · rw [InUse.call, hrefused hup] at hnext ⊢
        exact ih hnext hholds hlater
      · obtain ⟨fs', answer, hanswer, hstored, -, -⟩ := hstores hup
        rw [InUse.call, hanswer] at hnext ⊢
        exact ih hnext
          (hholds.of_stored h.wellFormed hstored (hothers _ _ _ (List.mem_cons_self ..)))
          fun q n c hmem hsame => hlater q n c hmem (hsame.of_stored hholds h.wellFormed hstored)

/-- Whether a text stays in the file under names below the root until one comes for that file. -/
def Lasts (use : InUse DirectorySink) (names : List String) (content : String) : Prop :=
  ∀ later, (∀ qualifiedName entryName text, .save qualifiedName entryName text ∈ later →
      ¬ SameFile use.world.files use.sink.root names (Path.names entryName)) →
    HoldsText (use.after later).world.files use.sink.root names content

/-- If no link stands below its root, a directory sink writes below its root only: behind any calls
it refuses an entry name with two dots and changes nothing; under any other it creates at most the
directories on the way and the one file that the names lead to. If it says so, the file holds the
text until one comes for that file, whose other names can only be older than the sink's use of it.
And there are still no links below the root. -/
theorem staysBelow {world : World} (hfiles : WellFormed world.files)
    (hroot : NoLinksBelow world.files sink.root) (calls : List SinkCall)
    {use : InUse DirectorySink} (huse : (⟨sink, world, []⟩ : InUse DirectorySink).after calls = use) :
    use.sink = sink ∧ NoLinksBelow use.world.files sink.root
      ∧ use.answer .close = (sink, use.world, .ok ())
      ∧ ∀ qualifiedName entryName content,
        (".." ∈ Path.segments entryName → use.answer (.save qualifiedName entryName content)
          = (sink, use.world, .error (Error.outside sink.root entryName).failure))
        ∧ (".." ∉ Path.segments entryName → ∃ fs' answer,
          use.answer (.save qualifiedName entryName content)
              = (sink, use.world.withFiles fs', answer)
            ∧ Stored use.world.files fs' sink.root (Path.names entryName)
            ∧ (answer = .ok () → Lasts (use.call (.save qualifiedName entryName content))
              (Path.names entryName) content)
            ∧ ((∀ place, use.world.files.WalksTo sink.root place →
                use.world.files.node? (place ++ Path.names entryName) = none) →
              ∀ names', SameFile fs' sink.root (Path.names entryName) names' →
                names' = Path.names entryName)) := by
  -- calls keep the sink to what is below its root
  have hconfined : Confined sink use := by
    rw [← huse]
    exact @InUse.after_induction DirectorySink _ (fun _ use => Confined sink use) _
      ⟨rfl, hfiles, hroot⟩ (fun _ _ last h => h.call last) calls
  refine ⟨hconfined.same, hconfined.noLinks, ?_, fun qualifiedName entryName content => ?_⟩
  · rw [answer_close, hconfined.same]
  · have hnext := hconfined.call (.save qualifiedName entryName content)
    obtain ⟨hrefused, hstores⟩ := hconfined.save qualifiedName entryName content
    refine ⟨hrefused, fun hdown => ?_⟩
    obtain ⟨fs', answer, hanswer, hstored, -, hholds⟩ := hstores hdown
    refine ⟨fs', answer, hanswer, hstored, fun hok later hothers => ?_,
      fun hnew names' => hstored.eq_of_sameFile hconfined.wellFormed hnew⟩
    rw [InUse.call, hanswer] at hnext hothers ⊢
    exact hnext.holdsText_after (hholds hok) hothers

/-! ## New texts, and two that are not kept -/

/-- A sink below whose root nothing stands yet. -/
def newSink : InUse DirectorySink := ⟨⟨"out"⟩, .ofFiles (bare []), []⟩

/-- A text, one whose name leads upwards, and one that would need the first one's file as a
directory. -/
def someCalls : List SinkCall :=
  [.save "A" "/a//A.java" "class A", .save "B" "a/../B.java" "class B",
    .save "C" "a/A.java/C.java" "class C"]

theorem wellFormed_bare : WellFormed (bare []) :=
  wellFormed_of_forall nofun (by simp [bare])

theorem noLinksBelow_bare (root : String) : NoLinksBelow (bare []) root :=
  noLinksBelow_of_forall (by simp [bare]) root

/-- The first text is stored, and stays in its file. -/
theorem staysBelow_someCalls :
    (newSink.after someCalls).answers.map Except.toBool = [true, false, false]
      ∧ NoLinksBelow (newSink.after someCalls).world.files "out"
      ∧ HoldsText (newSink.after someCalls).world.files "out" ["a", "A.java"] "class A" := by
  have hroot := noLinksBelow_bare "out"
  have hfirst := @staysBelow ⟨"out"⟩ (.ofFiles (bare [])) wellFormed_bare hroot [] newSink rfl
  have hall := @staysBelow ⟨"out"⟩ (.ofFiles (bare [])) wellFormed_bare hroot someCalls _ rfl
  refine ⟨by decide +kernel, hall.2.1, ?_⟩
  obtain ⟨fs', answer, hanswer, -, hlasts, hsingle⟩ :=
    (hfirst.2.2.2 "A" "/a//A.java" "class A").2 (by decide +kernel)
  have hok : answer = .ok () := by
    have hyes : (newSink.answer (.save "A" "/a//A.java" "class A")).2.2 = .ok () := by rfl
    rw [hanswer] at hyes
    exact hyes
  have hnames : Path.names "/a//A.java" = ["a", "A.java"] := by decide +kernel
  have hnew : ∀ place, (bare []).WalksTo "out" place →
      (bare []).node? (place ++ Path.names "/a//A.java") = none := by
    intro place hplace
    have hout : (bare []).WalksTo "out" ["out"] :=
      @walksTo_of_resolve _ .create _ _ _ (by decide +kernel) (.inr ⟨false, rfl⟩)
    cases hout.unique hplace
    decide +kernel
  have hfiles : (newSink.call (.save "A" "/a//A.java" "class A")).world.files = fs' := by
    rw [InUse.call, hanswer]
    rfl
  rw [← hnames]
  refine hlasts hok [.save "B" "a/../B.java" "class B", .save "C" "a/A.java/C.java" "class C"]
    fun qualifiedName entryName text hmem hsame => ?_
  rw [hfiles] at hsame
  have heq := hsingle hnew _ hsame
  simp only [List.mem_cons, SinkCall.save.injEq, List.not_mem_nil, or_false] at hmem
  rcases hmem with ⟨-, rfl, -⟩ | ⟨-, rfl, -⟩ <;> exact absurd heq (by decide +kernel)

/-- A sink whose root is the directory of the devices, behind a text for one of them. -/
def deviceSink : InUse DirectorySink :=
  (⟨⟨"/dev"⟩, .ofFiles (bare []), []⟩ : InUse DirectorySink).call (.save "N" "null" "class N")

/-- A file with two names. -/
def twinFiles : FileSystem :=
  ⟨[(["out", "A.java"], .file 0), (["out", "B.java"], .file 0),
    (["out"], .directory newDirectoryMode)], #[⟨#[], newFileMode, .disk⟩], []⟩

/-- A sink behind a text for each of them. -/
def twinSink : InUse DirectorySink :=
  (⟨⟨"out"⟩, .ofFiles twinFiles, []⟩ : InUse DirectorySink).after
    [.save "A" "A.java" "class A", .save "B" "B.java" "class B"]

/-- No link stands below either root, and each text is said to be stored. But a device does not keep
it, and the text of a file goes when another one is stored under the other name of the file. -/
theorem texts_lost :
    (NoLinksBelow (bare []) "/dev" ∧ deviceSink.answers.map Except.toBool = [true]
      ∧ ¬ ∃ place id, deviceSink.world.files.WalksTo "/dev" place
        ∧ deviceSink.world.files.node? (place ++ Path.names "null") = some (.file id)
        ∧ (deviceSink.world.files.data id).bytes.toList = Text.Utf8.encode "class N")
      ∧ NoLinksBelow twinFiles "out" ∧ twinSink.answers.map Except.toBool = [true, true]
      ∧ Path.names "B.java" ≠ Path.names "A.java"
      ∧ ¬ ∃ place id, twinSink.world.files.WalksTo "out" place
        ∧ twinSink.world.files.node? (place ++ Path.names "A.java") = some (.file id)
        ∧ (twinSink.world.files.data id).bytes.toList = Text.Utf8.encode "class A" := by
  refine ⟨⟨noLinksBelow_bare "/dev", by decide +kernel, ?_⟩,
    noLinksBelow_of_forall (by simp [twinFiles]) "out", by decide +kernel, by decide +kernel, ?_⟩
  · rintro ⟨place, id, hplace, hnode, hbytes⟩
    have hdev : deviceSink.world.files.WalksTo "/dev" ["dev"] :=
      @walksTo_of_resolve _ .inspect _ _ (.found ["dev"] (.directory newDirectoryMode) false)
        (by decide +kernel) (.inl ⟨_, _, rfl, nofun⟩)
    cases hdev.unique hplace
    have hnull : deviceSink.world.files.node? (["dev"] ++ Path.names "null") = some (.file 1) := by
      decide +kernel
    cases hnull.symm.trans hnode
    exact absurd hbytes (by decide +kernel)
  · rintro ⟨place, id, hplace, hnode, hbytes⟩
    have hout : twinSink.world.files.WalksTo "out" ["out"] :=
      @walksTo_of_resolve _ .inspect _ _ (.found ["out"] (.directory newDirectoryMode) false)
        (by decide +kernel) (.inl ⟨_, _, rfl, nofun⟩)
    cases hout.unique hplace
    have hfile : twinSink.world.files.node? (["out"] ++ Path.names "A.java") = some (.file 0) := by
      decide +kernel
    cases hfile.symm.trans hnode
    exact absurd hbytes (by decide +kernel)

end DirectorySink

end Reline
