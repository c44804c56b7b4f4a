import TypedClient.Proofs.WrittenClients

/-!
# Runs of the generator

A command that generates a client computes all of its files before it writes the first one, so a
failure on the way to them leaves every file as it was. What it writes goes into a directory that
may not be there, under a path that may turn back, so unlike in `WrittenClients` nothing is assumed
about it here. From a change that ended well it is read off where the path led: the directories that
it passes were there or were made where nothing was (`Ensured`), and files came where no directory
was (`Spread`).
-/

namespace TypedClient

open FileTree

/-! ## What a change has made -/

/-- The second tree is the first one with directories at some places, and with some files. -/
structure Spread (directories : List Place) (files : List (Place × ByteArray)) (t t' : FileTree) :
    Prop where
  home : t'.home = t.home
  unambiguous : t.Unambiguous → t'.Unambiguous
  place : ∀ q, t'.at? q = t.at? q ∨
    (q ∈ directories ∧ t.at? q = none ∧ t'.at? q = some .directory) ∨
    ∃ bytes, (q, bytes) ∈ files ∧ t.at? q ≠ some .directory ∧ t'.at? q = some (.file bytes)

namespace Spread

variable {directories directories' : List Place} {files files' : List (Place × ByteArray)}
  {t t' m : FileTree} {q : Place} {bytes : ByteArray}

theorem refl : Spread directories files t t := ⟨rfl, id, fun _ => .inl rfl⟩

theorem mono (h : Spread directories files t t') (hdirectories : directories ⊆ directories')
    (hfiles : files ⊆ files') : Spread directories' files' t t' := by
  refine ⟨h.home, h.unambiguous, fun q => ?_⟩
  rcases h.place q with hsame | ⟨hq, hmade⟩ | ⟨bytes, hq, hwritten⟩
  · exact .inl hsame
  · exact .inr (.inl ⟨hdirectories hq, hmade⟩)
  · exact .inr (.inr ⟨bytes, hfiles hq, hwritten⟩)

theorem trans (h : Spread directories files t m) (h' : Spread directories files m t') :
    Spread directories files t t' := by
  refine ⟨h'.home.trans h.home,
    fun hunambiguous => h'.unambiguous (h.unambiguous hunambiguous), fun q => ?_⟩
  rcases h.place q with hsame | ⟨hq, hnone, hmade⟩ | ⟨bytes, hq, hfree, hwritten⟩
  · have hlater := h'.place q
    rwa [hsame] at hlater
  · rcases h'.place q with hsame | ⟨_, hnone', _⟩ | ⟨_, _, hfree, _⟩
    · exact .inr (.inl ⟨hq, hnone, hsame.trans hmade⟩)
    · rw [hmade] at hnone'
      cases hnone'
    · exact absurd hmade hfree
  · rcases h'.place q with hsame | ⟨_, hnone, _⟩ | ⟨later, hq', _, hlater⟩
    · exact .inr (.inr ⟨bytes, hq, hfree, hsame.trans hwritten⟩)
    · rw [hwritten] at hnone
      cases hnone
    · exact .inr (.inr ⟨later, hq', hfree, hlater⟩)

theorem keeps_directory (h : Spread directories files t t') (hq : t.at? q = some .directory) :
    t'.at? q = some .directory := by
  rcases h.place q with hsame | ⟨_, _, hmade⟩ | ⟨_, _, hfree, _⟩
  · exact hsame.trans hq
  · exact hmade
  · exact absurd hq hfree

theorem locate {p : Path} (h : Spread directories files t t') (hlocated : t.locate p = .ok q) :
    t'.locate p = .ok q :=
  locate_mono h.home (fun _ => h.keeps_directory) hlocated

end Spread

namespace FileChange

open Run

variable {α β : Type} {t t' m : FileTree} {p : Path} {place : Place} {name : String}

/-! ## Changes that ended well -/

theorem Ends.unique {x : FileChange α} {outcome outcome' : Except Fault α}
    (h : Ends x t outcome m) (h' : Ends x t outcome' t') : outcome = outcome' ∧ m = t' :=
  Prod.mk.inj ((show x.run.run t = (outcome, m) from h).symm.trans h')

/-- A directory is there with those on the way to it, all of them made where nothing was. -/
structure Ensured (p : Path) (t t' : FileTree) : Prop where
  located : t'.locate p = .ok (p.target t.home)
  directory : t'.at? (p.target t.home) = some .directory
  spread : Spread (p.way t.home ++ [p.target t.home]) [] t t'

/-- Once the directory that it lies in has been made, so has a directory. -/
theorem Ensured.child (h : Ensured p t m) (h' : Ensured (p.child name) m t') :
    Ensured (p.child name) t t' := by
  obtain ⟨hlocated, hdirectory, hspread⟩ := h'
  rw [h.spread.home] at hlocated hdirectory hspread
  refine ⟨hlocated, hdirectory, Spread.trans (h.spread.mono ?_ (List.Subset.refl _)) hspread⟩
  rw [Path.way_child]
  exact List.subset_append_left _ _

end FileChange

/-! ## Files in a directory that may not be there -/

namespace CommandLine

open FileChange

variable {g : Generation} {outDir : Path} {file : GeneratedFile} {files : List GeneratedFile}
  {t t' m : FileTree}

variable {around : Surroundings} {args : List String}

/-- A command that gets as far as writing ends as the writing does. -/
theorem writeClient_cases (around : Surroundings) (outDir : Path) (files : List GeneratedFile) :
    (∃ tree, Ends (writeFiles outDir files) around.files (.ok ()) tree ∧
      writeClient around outDir files = ⟨.code 0, generatedLines outDir files, "", tree⟩) ∨
    ∃ fault tree, Ends (writeFiles outDir files) around.files (.error fault) tree ∧
      writeClient around outDir files = ⟨.fault fault, "", "", tree⟩ := by
  rw [writeClient]
  cases hrun : (writeFiles outDir files).run.run around.files with
  | mk outcome tree =>
      cases outcome with
      | ok u => exact .inl ⟨tree, hrun, rfl⟩
      | error fault => exact .inr ⟨fault, tree, hrun, rfl⟩

end CommandLine

end TypedClient
