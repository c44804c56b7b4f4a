import TypedClient.Clean
import TypedClient.Proofs.CamelWords
import TypedClient.Proofs.ClientFiles
import TypedClient.Proofs.FileTrees

/-!
# How generated files are known

Cleaning knows a generated file by its extension and by a line that it has to
find among the first ones. Generating a client and cleaning have nothing else in
common, so whatever is generated has to have this line early enough
(`Clean.Headed`): what comes before it are at most two lines, in which nothing
from a document stands but the name of a module.

The names of files are as simple: a file lies in the output directory itself and
has a name of letters and digits, or is the description of the API.
-/

namespace TypedClient

/-! ## First lines -/

namespace Clean

/-- A text that has the marker among its first lines. -/
def Headed (s : String) : Prop :=
  ∃ (lines : List String) (rest : String), lines.length < markerLines ∧
    (∀ line ∈ lines, '\n' ∉ line.toList ∧ '\r' ∉ line.toList) ∧
    s = unlines (lines ++ [generatedMarker]) ++ rest

variable {s t : String}

theorem Headed.append (h : Headed s) : Headed (s ++ t) := by
  obtain ⟨lines, rest, hshort, hplain, rfl⟩ := h
  exact ⟨lines, rest ++ t, hshort, hplain, String.append_assoc⟩

end Clean

/-! ## The files of a client -/

/-- A name of ASCII letters and digits. -/
def IsPlainName (s : String) : Prop := s ≠ "" ∧ ∀ c ∈ s.toList, c.isAlphanum = true

namespace Generation

open Clean

variable {g : Generation}

/-- What a file of a client is called, and that its bytes are known as those of a generated one. -/
structure ClientFile (g : Generation) (file : GeneratedFile) : Prop where
  path : file.1 = g.fileName "gateway/spec" ∨
    ∃ stem, IsPlainName stem ∧ file.1 = g.fileName stem
  marked : ∀ bytes, Text.utf8Of file.2 = some bytes → hasMarker bytes = true

end Generation

/-- Where a file goes, below the place of the output directory. -/
def filePlace (root : Place) (file : GeneratedFile) : Place := root ++ (Path.ofText file.1).parts

theorem Path.suffixOf_append {stem extension : String} (hstem : stem ≠ "")
    (hextension : extension ≠ "") (hdot : '.' ∉ extension.toList) :
    suffixOf (stem ++ "." ++ extension) = "." ++ extension := by
  have hchars : (stem ++ "." ++ extension).toList = stem.toList ++ '.' :: extension.toList := by
    simp
  have htake : (stem.toList ++ '.' :: extension.toList).reverse.takeWhile (· != '.') =
      extension.toList.reverse := by
    have hkept : ∀ c ∈ extension.toList.reverse, (c != '.') = true := by
      intro c hc
      rw [bne_iff_ne]
      rintro rfl
      exact hdot (List.mem_reverse.1 hc)
    rw [List.reverse_append, List.reverse_cons, List.append_assoc, List.singleton_append,
      List.takeWhile_append_of_pos hkept, List.takeWhile_cons_of_neg (by simp), List.append_nil]
  have hrest : (stem.toList ++ '.' :: extension.toList).take
      ((stem.toList ++ '.' :: extension.toList).length - extension.toList.length - 1) =
      stem.toList := by
    have hlength : (stem.toList ++ '.' :: extension.toList).length - extension.toList.length - 1 =
        stem.toList.length := by
      rw [List.length_append, List.length_cons]
      omega
    rw [hlength, List.take_left]
  have hnonempty (s : String) (h : s ≠ "") : s.toList.isEmpty = false := by simpa using h
  unfold suffixOf
  simp only [hchars, htake, List.reverse_reverse, hrest, hnonempty _ hstem,
    hnonempty _ hextension, Bool.or_self, Bool.false_eq_true, if_false]
  rw [← String.toList_inj]
  simp

/-- A name is a path of one part. -/
theorem Path.ofText_of_name {s : String} (hempty : s ≠ "") (hdot : s ≠ ".")
    (hslash : '/' ∉ s.toList) : ofText s = ⟨"", [s]⟩ := by
  have hroot : rootOf s.toList = "" := by
    unfold rootOf
    split
    · next h => simp [h] at hslash
    · next h => simp [h] at hslash
    · next h => simp [h] at hslash
    · rfl
  rw [ofText, hroot, Text.splitAt, Naming.piecesAt_of_not_mem hslash, List.map_singleton,
    String.ofList_toList, List.filter_cons_of_pos (by simp [hempty, hdot]), List.filter_nil]

namespace Generation

variable {g : Generation} {stem : String}

theorem fileName_chars (h : IsPlainName stem) :
    ∀ c ∈ (g.fileName stem).toList, c.isAlphanum = true ∨ c = '.' := by
  have hlanguage : g.options.language.name.toList.all Char.isAlphanum = true := by
    cases g.options.language <;> decide
  intro c hc
  rw [fileName, String.toList_append, String.toList_append, List.mem_append, List.mem_append] at hc
  rcases hc with (hc | hc) | hc
  · exact .inl (h.2 c hc)
  · exact .inr (List.mem_singleton.1 hc)
  · exact .inl (List.all_eq_true.1 hlanguage c hc)

/-- Whether a text starts with a letter or a digit and has a dot later on. -/
def hasExtension (s : String) : Bool :=
  match s.toList with
  | [] => false
  | c :: rest => c.isAlphanum && rest.contains '.'

theorem hasExtension_fileName (h : IsPlainName stem) : hasExtension (g.fileName stem) = true := by
  obtain ⟨c, cs, hcs⟩ := List.exists_cons_of_ne_nil (mt String.toList_eq_nil_iff.1 h.1)
  have hchars : (g.fileName stem).toList = c :: (cs ++ '.' :: g.options.language.name.toList) := by
    rw [fileName, String.toList_append, String.toList_append, hcs]
    simp
  have hc : c.isAlphanum = true := h.2 c (hcs ▸ List.mem_cons_self)
  rw [hasExtension, hchars]
  dsimp only
  rw [hc, Bool.true_and, List.contains_iff_mem]
  exact List.mem_append_right _ List.mem_cons_self

theorem fileName_ne {other : String} (h : IsPlainName stem) (hother : hasExtension other = false) :
    g.fileName stem ≠ other := by
  rintro rfl
  rw [hasExtension_fileName h] at hother
  cases hother

theorem not_mem_fileName {c : Char} (h : IsPlainName stem) (hc : c.isAlphanum = false)
    (hdot : c ≠ '.') : c ∉ (g.fileName stem).toList := by
  intro hmem
  rcases fileName_chars h c hmem with hletter | hmark
  · rw [hletter] at hc
    cases hc
  · exact hdot hmark

theorem suffixOf_fileName (h : IsPlainName stem) :
    Clean.generatedSuffixes.contains (Path.suffixOf (g.fileName stem)) = true := by
  rw [fileName]
  cases g.options.language with
  | ts =>
      rw [Path.suffixOf_append h.1 (by decide) (by decide)]
      decide
  | js =>
      rw [Path.suffixOf_append h.1 (by decide) (by decide)]
      decide

variable {file : GeneratedFile}

/-- A file of a client lies in the output directory or in one directory in it. -/
theorem ClientFile.parts (h : g.ClientFile file) : ∃ inner stem,
    (inner = [] ∨ inner = ["gateway"]) ∧ IsPlainName stem ∧
      Path.ofText file.1 = ⟨"", inner ++ [g.fileName stem]⟩ := by
  rcases h.path with hspec | ⟨stem, hstem, hname⟩
  · refine ⟨["gateway"], "spec", .inr rfl,
      ⟨by decide, fun c hc => List.all_eq_true.1 (by decide : "spec".toList.all Char.isAlphanum) c hc⟩,
      ?_⟩
    rw [hspec, fileName, fileName]
    cases g.options.language <;> decide
  · refine ⟨[], stem, .inl rfl, hstem, ?_⟩
    rw [hname, Path.ofText_of_name (fileName_ne hstem (by decide)) (fileName_ne hstem (by decide))
      (not_mem_fileName hstem (by decide) (by decide))]
    rfl

/-- Whatever directory a file of a client is written into, its path does not lead out of it. -/
theorem ClientFile.inner (h : g.ClientFile file) :
    (Path.ofText file.1).root = "" ∧ ".." ∉ (Path.ofText file.1).parts := by
  obtain ⟨inner, stem, hinner, hstem, hparts⟩ := h.parts
  rw [hparts]
  refine ⟨rfl, fun hmem => ?_⟩
  rcases List.mem_append.1 hmem with hdots | hdots
  · rcases hinner with rfl | rfl
    · cases hdots
    · exact absurd (List.mem_singleton.1 hdots) (by decide)
  · exact fileName_ne hstem (by decide) (List.mem_singleton.1 hdots).symm

theorem ClientFile.isGenerated (h : g.ClientFile file) (root : Place) {bytes : ByteArray}
    (hbytes : Text.utf8Of file.2 = some bytes) :
    Clean.isGenerated (filePlace root file) (.file bytes) = true := by
  obtain ⟨inner, stem, _, hstem, hparts⟩ := h.parts
  have hname : (filePlace root file).getLastD "" = g.fileName stem := by
    rw [filePlace, hparts]
    simp
  rw [Clean.isGenerated, hname, suffixOf_fileName hstem, h.marked bytes hbytes, Bool.and_self]

theorem ClientFile.isBelow (h : g.ClientFile file) (root : Place) :
    FileTree.isBelow root (filePlace root file) = true := by
  obtain ⟨inner, stem, hinner, _, hparts⟩ := h.parts
  rw [FileTree.isBelow_iff, filePlace, hparts]
  rcases hinner with rfl | rfl
  · exact ⟨g.fileName stem, [], rfl⟩
  · exact ⟨"gateway", [g.fileName stem], rfl⟩

end Generation

end TypedClient
