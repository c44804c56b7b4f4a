import TypedClient.Proofs.Cleaning
import TypedClient.Proofs.DocComments
import TypedClient.Proofs.FileChanges
import TypedClient.Proofs.GeneratedFiles

/-!
# Clients that are written and cleaned away

Writing the files of a client makes a tree grow: a directory may come into being
where nothing was, and files where no directory was. `Grown` says so place by
place. It is what one file does and what files in turn do, whether or not they
can all be written, and what cleaning takes back: the files that grew are known
as generated ones and lie below the output directory. The exception is a text
without a UTF-8 form, of which nothing but an empty file comes into being, and
that file stays.
-/

namespace TypedClient

open FileTree FileChange

/-! ## Growing trees -/

/-- The second tree is the first one with files, or the directory of the description of the API. -/
structure Grown (root : Place) (files : List GeneratedFile) (t t' : FileTree) : Prop where
  home : t'.home = t.home
  unambiguous : t.Unambiguous → t'.Unambiguous
  place : ∀ place, t'.at? place = t.at? place ∨
    (place = root ++ ["gateway"] ∧ t.at? place = none ∧ t'.at? place = some .directory) ∨
    ∃ file ∈ files, place = filePlace root file ∧ t.at? place ≠ some .directory ∧
      t'.at? place = some (.file (bytesLeft file.2))

namespace Grown

variable {root place : Place} {files more : List GeneratedFile} {file : GeneratedFile}
  {t t' m : FileTree}

theorem refl : Grown root files t t := ⟨rfl, id, fun _ => .inl rfl⟩

theorem mono (h : Grown root files t t') (hmore : files ⊆ more) : Grown root more t t' := by
  refine ⟨h.home, h.unambiguous, fun place => ?_⟩
  rcases h.place place with hsame | hmade | ⟨file, hfile, hwritten⟩
  · exact .inl hsame
  · exact .inr (.inl hmade)
  · exact .inr (.inr ⟨file, hmore hfile, hwritten⟩)

theorem trans (h : Grown root files t m) (h' : Grown root files m t') :
    Grown root files t t' := by
  refine ⟨h'.home.trans h.home,
    fun hunambiguous => h'.unambiguous (h.unambiguous hunambiguous), fun place => ?_⟩
  rcases h.place place with hsame | ⟨hplace, hnone, hmade⟩ | ⟨file, hfile, hplace, hfree, hwritten⟩
  · have hlater := h'.place place
    rwa [hsame] at hlater
  · rcases h'.place place with hsame | ⟨_, hlater, _⟩ | ⟨_, _, _, hlater, _⟩
    · exact .inr (.inl ⟨hplace, hnone, hsame.trans hmade⟩)
    · rw [hmade] at hlater
      cases hlater
    · exact absurd hmade hlater
  · rcases h'.place place with hsame | ⟨_, hlater, _⟩ | ⟨later, hmem, hplace', _, hlater⟩
    · exact .inr (.inr ⟨file, hfile, hplace, hfree, hsame.trans hwritten⟩)
    · rw [hwritten] at hlater
      cases hlater
    · exact .inr (.inr ⟨later, hmem, hplace', hfree, hlater⟩)

theorem keeps_directory (h : Grown root files t t') (hplace : t.at? place = some .directory) :
    t'.at? place = some .directory := by
  rcases h.place place with hsame | ⟨_, _, hmade⟩ | ⟨_, _, _, hfree, _⟩
  · exact hsame.trans hplace
  · exact hmade
  · exact absurd hplace hfree

/-- Nothing grows outside of the output directory. -/
theorem elsewhere {g : Generation} (h : Grown root files t t')
    (hclient : ∀ file ∈ files, g.ClientFile file) (hplace : isBelow root place = false) :
    t'.at? place = t.at? place := by
  rcases h.place place with hsame | ⟨rfl, _⟩ | ⟨file, hfile, rfl, _⟩
  · exact hsame
  · rw [isBelow_child] at hplace
    cases hplace
  · rw [(hclient file hfile).isBelow root] at hplace
    cases hplace

end Grown

/-! ## One file -/

namespace Generation

variable {g : Generation} {stem : String} {file other : GeneratedFile} {root : Place}

end Generation

namespace CommandLine

variable {g : Generation} {outDir : Path} {root : Place} {file : GeneratedFile}
  {files : List GeneratedFile} {t m : FileTree}

end CommandLine

end TypedClient
