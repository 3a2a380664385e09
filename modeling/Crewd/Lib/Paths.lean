import Mathlib.Data.List.Basic

/-! How the text of a path is walked through a tree of directories: empty components and
`.` stay, `..` goes up, and every other component but the last must be a directory.
There are no symbolic links. -/
namespace Paths

/-- The names from the root on. -/
abbrev Path := List String

/-- The directories, and the texts that are taken as paths. -/
structure Tree where
  isDir : Path → Bool
  takes : String → Bool

def components (text : String) : List String := (text.toList.splitOn '/').map String.ofList

/-- A name that a directory can have an entry of. -/
structure Plain (name : String) : Prop where
  whole : '/' ∉ name.toList
  named : name ≠ ""
  apart : name ≠ "." ∧ name ≠ ".."

namespace Tree
variable (tree : Tree)

def walk (dir : Path) : List String → Option Path
  | [] => some dir
  | name :: rest =>
    if name = "" ∨ name = "." then walk dir rest
    else if name = ".." then walk dir.dropLast rest
    else if rest = [] ∨ tree.isDir (dir ++ [name]) = true then walk (dir ++ [name]) rest
    else none

/-- Where a text leads from a directory; a leading separator is the root. -/
def resolve (dir : Path) (text : String) : Option Path :=
  if tree.takes text then
    tree.walk (if ['/'] <+: text.toList then [] else dir) (components text)
  else none

variable {tree} {dir : Path} {name : String}

theorem components_plain (whole : '/' ∉ name.toList) : components name = [name] := by
  have apart : ∀ c ∈ name.toList, (c == '/') = false := by
    intro c member
    apply beq_false_of_ne
    rintro rfl
    exact whole member
  rw [components, List.splitOn_eq_singleton_of_beq_eq_false apart, List.map_singleton,
    String.ofList_toList]

/-- A plain name is an entry of the directory. -/
theorem resolve_plain (plain : Plain name) (taken : tree.takes name = true) :
    tree.resolve dir name = some (dir ++ [name]) := by
  have relative : ¬ ['/'] <+: name.toList := by
    intro leads
    exact plain.whole (leads.subset List.mem_cons_self)
  have here : ¬ (name = "" ∨ name = ".") := not_or.mpr ⟨plain.named, plain.apart.1⟩
  rw [resolve, if_pos taken, if_neg relative, components_plain plain.whole, walk, if_neg here,
    if_neg plain.apart.2, if_pos (.inl rfl), walk]

end Tree
end Paths
