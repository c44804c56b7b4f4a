import TypedClient.Proofs.FileTrees

/-!
# Changes of file trees

How the changes of a file tree end, and which tree they leave. Only what happens
in a directory that is there is needed: a directory or a file of one name made
in it. Each may fail, but then nothing has changed.
-/

namespace TypedClient

namespace Path

/-- The path to something of a name in a directory. -/
def child (p : Path) (name : String) : Path := { p with parts := p.parts ++ [name] }

/-- A name that something can have: no double dots, and no half of a surrogate pair and no null
character in it. -/
structure IsName (name : String) : Prop where
  dots : name ≠ ".."
  whole : name.toList.any Text.isHalf = false
  null : Char.ofNat 0 ∉ name.toList

variable {home : Place} {p : Path} {a name : String}

theorem IsName.isEncodable (h : IsName name) : isEncodable name = true := by
  rw [Path.isEncodable, List.all_eq_true]
  intro c hc
  simp [List.any_eq_false.1 h.whole c hc]

theorem way_child : (p.child name).way home = p.way home ++ [p.target home] := by
  rw [target_eq, way, child]
  exact FileTree.passed_append _ p.parts [name]

end Path

namespace FileTree

variable {t : FileTree} {place : Place} {p : Path} {name : String}

theorem isBelow_child (place : Place) (name : String) : isBelow place (place ++ [name]) = true :=
  isBelow_iff.2 ⟨name, [], rfl⟩

end FileTree

namespace FileChange

open FileTree Run

variable {α β : Type} {t t' m : FileTree} {p : Path} {place : Place} {fault : Fault}

/-- A change of a tree ends with an outcome and leaves a tree. -/
def Ends (x : FileChange α) (t : FileTree) (outcome : Except Fault α) (t' : FileTree) : Prop :=
  (x.run.run t : Except Fault α × FileTree) = (outcome, t')

section Runs

variable {x : FileChange α} {f : α → FileChange β} {a : α} {outcome : Except Fault β}

theorem Ends.bind (hx : Ends x t (.ok a) m) (hf : Ends (f a) m outcome t') :
    Ends (x >>= f) t outcome t' := by
  have hrun : x.run.run t = (.ok a, m) := hx
  rw [Ends, run_bind, hrun]
  exact hf

end Runs

/-! ## One directory -/

end FileChange

end TypedClient
