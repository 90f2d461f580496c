import VersionedObjects.Text.Cluster

/-!
# Backspaces

A backspace in a typed line erases the cluster before it. The size of a cluster is kept in one
byte: of a cluster of 256 bytes or more only the remainder is erased.
-/

namespace VersionedObjects.Text

/-- The character that erases. -/
def backspace : Char := '\x08'

/-- How many bytes characters have. -/
def byteSize (cs : List Char) : Nat :=
  cs.foldl (fun size c => size + c.utf8Size) 0

/-- Leaves out whole characters from the front, as far as they fit into a number of bytes. -/
def dropBytes (size : Nat) : List Char → List Char
  | [] => []
  | c :: rest => if c.utf8Size ≤ size then dropBytes (size - c.utf8Size) rest else c :: rest

/-- A line while it is typed. -/
structure TypedLine where
  /-- The characters, from the last on. -/
  reversed : List Char := []
  /-- The sizes that backspaces erase, from the last on. -/
  sizes : List Nat := []

/-- The line after one more cluster. -/
def TypedLine.type (line : TypedLine) (cluster : List Char) : TypedLine :=
  if cluster = [backspace] then
    match line.sizes with
    | [] => line
    | size :: sizes => { reversed := dropBytes size line.reversed, sizes }
  else
    { reversed := cluster.reverse ++ line.reversed
      sizes := byteSize cluster % 256 :: line.sizes }

/-- A line with what its backspaces erase left out. -/
def eraseBackspaced (line : String) : String :=
  String.ofList ((clusters line.toList).foldl TypedLine.type {}).reversed.reverse

/-- Typing clusters of which none is a backspace puts them at the end of the line. -/
theorem foldl_type_reversed (clusters : List (List Char)) (line : TypedLine)
    (h : [backspace] ∉ clusters) :
    (clusters.foldl TypedLine.type line).reversed = clusters.flatten.reverse ++ line.reversed := by
  induction clusters generalizing line with
  | nil => simp
  | cons cluster rest ih =>
    simp only [List.mem_cons, not_or] at h
    simp [ih _ h.2, TypedLine.type, Ne.symm h.1]

/-- A line without backspaces stays as it is. -/
theorem eraseBackspaced_of_notMem {line : String} (h : backspace ∉ line.toList) :
    eraseBackspaced line = line := by
  have hc : [backspace] ∉ clusters line.toList := fun hm => h <| by
    rw [← flatten_clusters line.toList]
    exact List.mem_flatten.2 ⟨_, hm, by simp⟩
  simp [eraseBackspaced, foldl_type_reversed _ _ hc, flatten_clusters]

end VersionedObjects.Text
