import TypedClient.Loading
import TypedClient.Proofs.FileTrees
import TypedClient.Proofs.JsonFaults
import TypedClient.Proofs.YamlFaults

/-!
# How loading a file ends

A file is looked for, opened, decoded, read as JSON or YAML, and has to hold a
mapping. Loading is meant to report whatever goes wrong on the way as an error
that names the file. `loadFile_ends` says that it does, except in the cases of
`Slip`, where a fault goes through unreported: the path is none of the file system,
the bytes are no text, or the text writes a value that cannot be made.

Failures to open a file are all of the kind that has a number, and these are
reported. What the readers let through is traced to the text by `Ground`.
-/

namespace TypedClient

variable {files : FileTree} {store : Store} {p : Path} {text : String} {fault : Fault}

/-! ## Paths -/

/-- A path that is written has a text: at least a dot. -/
theorem Path.text_ofText_ne (s : String) : (Path.ofText s).text ≠ "" := by
  rw [text]
  split
  · decide
  · next hnot =>
      intro hempty
      obtain ⟨hroot, hjoined⟩ := String.append_eq_empty_iff.1 hempty
      refine hnot ?_
      cases hparts : (Path.ofText s).parts with
      | nil => rw [hroot]; rfl
      | cons part rest =>
          -- parts that are kept are not empty, and so is no text that starts with one
          have hpart : part ∈ (Path.ofText s).parts := hparts ▸ List.mem_cons_self
          have hne : part ≠ "" := by
            have hkept := (List.mem_filter.1 hpart).2
            intro h
            simp [h] at hkept
          rw [hparts] at hjoined
          cases rest with
          | nil => exact absurd (String.intercalate_singleton.symm.trans hjoined) hne
          | cons next more =>
              rw [String.intercalate_cons_cons] at hjoined
              have hstart := (String.append_eq_empty_iff.1 hjoined).1
              exact absurd (String.append_eq_empty_iff.1 hstart).1 hne

/-! ## Opening a file -/

namespace FileTree

/-- Following parts ends with a failure that has a number. -/
theorem follow_error {place : Place} {parts : List String}
    (h : files.follow place parts = .error fault) : (openError fault).isSome := by
  induction parts generalizing place with
  | nil => cases h
  | cons part rest ih =>
      rw [follow] at h
      split at h
      · cases h; rfl
      · cases h; rfl
      · split at h
        · cases h; rfl
        · exact ih h

theorem locate_error (h : files.locate p = .error fault) :
    p.fault? = some fault ∨ (openError fault).isSome := by
  rw [locate] at h
  split at h
  · next other hother => exact .inl (Except.error.inj h ▸ hother)
  · split at h
    · cases h; exact .inr rfl
    · exact .inr (follow_error h)

theorem read_eq_ok {bytes : ByteArray} :
    files.read p = .ok bytes ↔ files.find? p = some (.file bytes) := by
  rw [read, find?, bind_eq_ok]
  constructor
  · rintro ⟨place, hplace, h⟩
    rw [hplace]
    split at h
    · next found hfound => rw [← pure_eq_ok.1 h]; exact hfound
    · cases h
    · cases h
  · intro h
    split at h
    · next place hplace => exact ⟨place, hplace, by rw [h]; rfl⟩
    · cases h

theorem read_error (h : files.read p = .error fault) :
    p.fault? = some fault ∨ (openError fault).isSome := by
  rcases bind_eq_error.1 h with h | ⟨place, hplace, h⟩
  · exact locate_error h
  · split at h
    · cases h
    · cases h; exact .inr rfl
    · cases h; exact .inr rfl

end FileTree

/-- A path leads to a file with a text. -/
def FileTree.Holds (files : FileTree) (p : Path) (text : String) : Prop :=
  ∃ bytes, files.find? p = some (.file bytes) ∧ textOfBytes bytes = some text

theorem textOfBytes_eq_none {bytes : ByteArray} :
    textOfBytes bytes = none ↔ ¬bytes.IsValidUTF8 := by
  rw [textOfBytes, Option.map_eq_none_iff, String.fromUTF8?]
  split
  · next hvalid => exact ⟨nofun, fun h => absurd hvalid h⟩
  · next hinvalid => exact ⟨fun _ => hinvalid, fun _ => rfl⟩

theorem readText_eq_ok : readText files p = .ok text ↔ files.Holds p text := by
  rw [readText, bind_eq_ok]
  constructor
  · rintro ⟨bytes, hbytes, h⟩
    refine ⟨bytes, FileTree.read_eq_ok.1 hbytes, ?_⟩
    split at h
    · next found hfound => rw [← pure_eq_ok.1 h]; exact hfound
    · cases h
  · rintro ⟨bytes, hbytes, h⟩
    exact ⟨bytes, FileTree.read_eq_ok.2 hbytes, by rw [h]; rfl⟩

/-- Bytes that are no text are not read. -/
theorem readText_undecodable {bytes : ByteArray} (hfound : files.find? p = some (.file bytes))
    (hbytes : ¬bytes.IsValidUTF8) : readText files p = .error .undecodable := by
  refine bind_eq_error.2 (.inr ⟨bytes, FileTree.read_eq_ok.2 hfound, ?_⟩)
  rw [textOfBytes_eq_none.2 hbytes]
  rfl

theorem readText_of_fault (h : p.fault? = some fault) : readText files p = .error fault := by
  rw [readText, FileTree.read, FileTree.locate_of_fault h]
  rfl

theorem readText_error (h : readText files p = .error fault) :
    (openError fault).isSome ∨ p.fault? = some fault ∨
      fault = .undecodable ∧ ∃ bytes, files.find? p = some (.file bytes) ∧ ¬bytes.IsValidUTF8 := by
  rcases bind_eq_error.1 h with h | ⟨bytes, hbytes, h⟩
  · exact (FileTree.read_error h).symm.imp_right .inl
  · split at h
    · cases h
    · next hnone =>
        cases h
        exact .inr (.inr ⟨rfl, bytes, FileTree.read_eq_ok.1 hbytes, textOfBytes_eq_none.1 hnone⟩)

/-! ## Reading a text -/

/-- A document is a mapping of its store. -/
def Loaded.IsMapping (loaded : Loaded) : Prop := loaded.document < loaded.store.mappings.size

theorem plant_mapping {t : Tree} {store' : Store} {id : Nat}
    (h : t.plant store = (store', .mapping id)) : id < store'.mappings.size := by
  have hadd {entries : Entries} {before : Store}
      (hadded : before.addMapping entries = (store', .mapping id)) : id < store'.mappings.size := by
    cases hadded
    simp
  cases t with
  | scalar s | sequence items | typed kind items => cases h
  | sequenceAgain => cases h
  | mapping entries => exact hadd h
  | mappingAgain => exact hadd h
  | typedAgain kind => cases h

/-- A fault that the reader of JSON, or that of YAML, lets through. -/
inductive ReaderFault (store : Store) (text : String) : (asJson : Bool) → Fault → Prop
  | json {e : Json.ReadError} {fault : Fault} (read : Json.read text = .error e)
      (kind : e.fault? = some fault) : ReaderFault store text true fault
  | yaml {fault : Fault} (read : Yaml.read store text = .error (.fault fault)) :
      ReaderFault store text false fault

/-- The value of a text. -/
def readValue (store : Store) (source text : String) (asJson : Bool) :
    Except Failure (Store × Value) :=
  if asJson then readJson store source text else readYaml store source text

variable {source : String} {asJson : Bool}

/-- A text has a value, or is refused with an error that names its source, or its
reader lets a fault through. -/
theorem readValue_error {failure : Failure}
    (h : readValue store source text asJson = .error failure) :
    (∃ detail, failure = sourceError source detail) ∨
      ∃ fault, failure = .malformed fault ∧ ReaderFault store text asJson fault := by
  cases asJson with
  | true =>
      change readJson store source text = .error failure at h
      unfold readJson at h
      split at h
      · cases h
      · next hread => cases h; exact .inr ⟨_, rfl, .json hread rfl⟩
      · next hread => cases h; exact .inr ⟨_, rfl, .json hread rfl⟩
      · cases h; exact .inl ⟨_, rfl⟩
  | false =>
      change readYaml store source text = .error failure at h
      unfold readYaml at h
      split at h
      · cases h
      · cases h; exact .inl ⟨_, rfl⟩
      · next hread => cases h; exact .inr ⟨_, rfl, .yaml hread⟩

theorem readValue_fault (h : ReaderFault store text asJson fault) :
    readValue store source text asJson = .error (.malformed fault) := by
  cases h with
  | json hread hkind =>
      change readJson store source text = _
      rw [readJson, hread]
      rename_i e
      cases e <;> cases hkind <;> rfl
  | yaml hread =>
      change readYaml store source text = _
      rw [readYaml, hread]

theorem readValue_mapping {store' : Store} {id : Nat}
    (h : readValue store source text asJson = .ok (store', .mapping id)) :
    id < store'.mappings.size := by
  cases asJson with
  | true =>
      change readJson store source text = _ at h
      unfold readJson at h
      split at h
      · exact plant_mapping (Except.ok.inj h)
      · cases h
      · cases h
      · cases h
  | false =>
      change readYaml store source text = _ at h
      unfold readYaml at h
      split at h
      · next found hread =>
          cases h
          exact Yaml.read_mapping hread
      · cases h
      · cases h

theorem readDocument_eq : readDocument store source text asJson =
    readValue store source text asJson >>= fun
      | (store, .mapping id) => .ok ⟨store, id⟩
      | _ => .error (sourceError source "Schema root must be a mapping") := by
  cases asJson <;> rfl

/-- A text is a mapping, or is refused with an error that names its source, or its
reader lets a fault through. -/
theorem readDocument_ends (store : Store) (source text : String) (asJson : Bool) :
    (∃ loaded, readDocument store source text asJson = .ok loaded ∧ loaded.IsMapping) ∨
    (∃ detail, readDocument store source text asJson = .error (sourceError source detail)) ∨
    ∃ fault, ReaderFault store text asJson fault ∧
      readDocument store source text asJson = .error (.malformed fault) := by
  rw [readDocument_eq]
  cases hvalue : readValue store source text asJson with
  | error failure =>
      rcases readValue_error hvalue with ⟨detail, rfl⟩ | ⟨fault, rfl, hfault⟩
      · exact .inr (.inl ⟨detail, rfl⟩)
      · exact .inr (.inr ⟨fault, hfault, rfl⟩)
  | ok found =>
      obtain ⟨after, v⟩ := found
      cases v with
      | mapping id => exact .inl ⟨⟨after, id⟩, rfl, readValue_mapping hvalue⟩
      | scalar s | sequence id | typed kind id => exact .inr (.inl ⟨_, rfl⟩)

/-! ## Loading -/

/-- The ways in which loading a file ends with a fault that is not reported. -/
inductive Slip (files : FileTree) (store : Store) (p : Path) : Fault → Prop
  | path {fault : Fault} (unfit : p.fault? = some fault) : Slip files store p fault
  | bytes {bytes : ByteArray} (found : files.find? p = some (.file bytes))
      (undecodable : ¬bytes.IsValidUTF8) : Slip files store p .undecodable
  | value {text : String} {fault : Fault} (holds : files.Holds p text)
      (read : ReaderFault store text (hasJsonName p) fault) : Slip files store p fault

/-- What a path, or the file that it leads to, has that nothing can be made of. -/
inductive Ground (files : FileTree) (p : Path) : Fault → Prop
  | path {fault : Fault} (unfit : p.fault? = some fault) : Ground files p fault
  | bytes {bytes : ByteArray} (found : files.find? p = some (.file bytes))
      (undecodable : ¬bytes.IsValidUTF8) : Ground files p .undecodable
  | json {text : String} {fault : Fault} (holds : files.Holds p text)
      (name : hasJsonName p = true) (excess : Json.Excess 0 text.toList fault) :
      Ground files p fault
  | yaml {text : String} {fault : Fault} (holds : files.Holds p text)
      (name : hasJsonName p = false) (unfit : Yaml.Unfit text fault) : Ground files p fault

theorem Slip.ground (h : Slip files store p fault) : Ground files p fault := by
  cases h with
  | path unfit => exact .path unfit
  | bytes found undecodable => exact .bytes found undecodable
  | value holds read =>
      cases hname : hasJsonName p with
      | true =>
          rw [hname] at read
          cases read with
          | json hread hkind => exact .json holds hname (Json.read_excess hread hkind)
      | false =>
          rw [hname] at read
          cases read with
          | yaml hread => exact .yaml holds hname (Yaml.read_unfit hread)

theorem openErrorText_of_fault (h : p.fault? = some fault) : openErrorText fault p = none := by
  rw [Path.fault?] at h
  split at h
  · cases h; rfl
  · split at h
    · cases h; rfl
    · cases h

theorem Slip.fails (h : Slip files store p fault) :
    loadFile files store p = .error (.malformed fault) := by
  cases h with
  | path unfit => rw [loadFile, readText_of_fault unfit]; dsimp only; rw [openErrorText_of_fault unfit]
  | bytes found undecodable => rw [loadFile, readText_undecodable found undecodable]; rfl
  | value holds read =>
      rw [loadFile, readText_eq_ok.2 holds]
      change readDocument store p.text _ (hasJsonName p) = _
      rw [readDocument_eq, readValue_fault read]
      rfl

/-- A file is loaded, or refused with an error that names it, or a fault slips through. -/
theorem loadFile_cases (files : FileTree) (store : Store) (p : Path) :
    (∃ loaded, loadFile files store p = .ok loaded ∧ loaded.IsMapping) ∨
    (∃ detail, loadFile files store p = .error (sourceError p.text detail)) ∨
    ∃ fault, Slip files store p fault := by
  cases htext : readText files p with
  | ok text =>
      rw [loadFile, htext]
      rcases readDocument_ends store p.text text (hasJsonName p) with h | h | ⟨fault, hfault, -⟩
      · exact .inl h
      · exact .inr (.inl h)
      · exact .inr (.inr ⟨fault, .value (readText_eq_ok.1 htext) hfault⟩)
  | error fault =>
      rcases readText_error htext with hopen | unfit | ⟨rfl, bytes, found, undecodable⟩
      · obtain ⟨wording, hwording⟩ : ∃ wording, openErrorText fault p = some wording := by
          rw [openErrorText, ← Option.isSome_iff_exists, Option.isSome_map]
          exact hopen
        refine .inr (.inl ⟨"Failed to read schema file: " ++ wording, ?_⟩)
        rw [loadFile, htext]
        dsimp only
        rw [hwording]
      · exact .inr (.inr ⟨_, .path unfit⟩)
      · exact .inr (.inr ⟨_, .bytes found undecodable⟩)

/-- Unless a fault slips through, a file is loaded as a mapping or refused with an
error that starts with its path. A fault comes unreported exactly if it slips
through, and then the path or the contents of the file are to blame. -/
theorem loadFile_ends (files : FileTree) (store : Store) (s : String) :
    ((∀ fault, ¬Slip files store (Path.ofText s) fault) →
      (∃ loaded, loadFile files store (Path.ofText s) = .ok loaded ∧ loaded.IsMapping) ∨
      ∃ e detail, loadFile files store (Path.ofText s) = .error (.schema e) ∧
        e.message = "[" ++ (Path.ofText s).text ++ "] " ++ detail) ∧
    (∀ fault, loadFile files store (Path.ofText s) = .error (.malformed fault) ↔
      Slip files store (Path.ofText s) fault) ∧
    ∀ fault, Slip files store (Path.ofText s) fault → Ground files (Path.ofText s) fault := by
  refine ⟨fun hslip => ?_, fun fault => ⟨fun h => ?_, Slip.fails⟩, fun fault => Slip.ground⟩
  · rcases loadFile_cases files store (Path.ofText s) with h | ⟨detail, h⟩ | ⟨fault, h⟩
    · exact .inl h
    · exact .inr ⟨_, detail, h, if_neg (Path.text_ofText_ne s)⟩
    · exact absurd h (hslip fault)
  · rcases loadFile_cases files store (Path.ofText s) with
      ⟨_, hok, -⟩ | ⟨_, hrefused⟩ | ⟨other, hother⟩
    · rw [hok] at h
      cases h
    · rw [hrefused] at h
      cases h
    · rw [hother.fails] at h
      cases h
      exact hother

/-- A file with the empty mapping. -/
def mappingTree : FileTree := ⟨[], [(["a.json"], .file "\x7b\x7d".toUTF8)]⟩

/-- The empty mapping is loaded, so nothing slips through. -/
theorem loadFile_ends_of_mapping :
    (∀ fault, ¬Slip mappingTree {} (Path.ofText "a.json") fault) ∧
    ∃ loaded, loadFile mappingTree {} (Path.ofText "a.json") = .ok loaded ∧ loaded.IsMapping := by
  obtain ⟨hends, hslips, -⟩ := loadFile_ends mappingTree {} "a.json"
  have hloaded : loadFile mappingTree {} (Path.ofText "a.json") = .ok ⟨⟨#[], #[[]]⟩, 0⟩ := by rfl
  have hslip : ∀ fault, ¬Slip mappingTree {} (Path.ofText "a.json") fault := by
    intro fault h
    rw [← hslips, hloaded] at h
    cases h
  refine ⟨hslip, (hends hslip).resolve_right ?_⟩
  rintro ⟨e, detail, herror, -⟩
  rw [hloaded] at herror
  cases herror

/-- A file with one byte, which no text starts with. -/
def byteTree : FileTree := ⟨[], [(["a.yaml"], .file ⟨#[0xff]⟩)]⟩

/-- The file is neither loaded nor refused with an error of its own. -/
theorem loadFile_undecodable :
    loadFile byteTree {} (Path.ofText "a.yaml") = .error (.malformed .undecodable) := by
  rfl

end TypedClient
