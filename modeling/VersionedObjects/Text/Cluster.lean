import VersionedObjects.Text.Break

/-!
# Clusters of characters

A text falls into the extended grapheme clusters of Unicode: what a reader takes for one
character, such as a letter with its accents, a flag or a family of joined pictographs. Nothing of
the text is lost, and no cluster is empty.
-/

namespace VersionedObjects.Text

/-- A pictograph, and what extends it, stands before. The characters are given from the nearest
on. -/
def followsPictograph (before : List Char) : Bool :=
  match before.dropWhile isExtending with
  | c :: _ => Break.of c == .pictograph
  | [] => false

/-- A consonant stands before that is linked to what follows. The characters are given from the
nearest on. -/
def followsLink (before : List Char) : Bool :=
  match before.dropWhile extendsConjunct with
  | c :: _ => isConsonant c && (before.takeWhile extendsConjunct).any isLinker
  | [] => false

/-- An unpaired regional indicator stands before. The characters are given from the nearest on. -/
def followsHalfFlag (before : List Char) : Bool :=
  (before.takeWhile (Break.of · == .regional)).length % 2 == 1

/-- A character belongs to the cluster before it, which is given from its last character on. -/
def continues (cluster : List Char) (next : Char) : Bool :=
  match cluster with
  | [] => false
  | last :: earlier =>
    match Break.of last, Break.of next with
    | .carriageReturn, .lineFeed => true
    | .carriageReturn, _ | .lineFeed, _ | .control, _ => false
    | _, .carriageReturn | _, .lineFeed | _, .control => false
    | _, .extending | _, .joiner | _, .spacing | .prepended, _ => true
    | .leading, .leading | .leading, .vowel | .leading, .openSyllable
    | .leading, .closedSyllable => true
    | .openSyllable, .vowel | .openSyllable, .trailing | .vowel, .vowel | .vowel, .trailing => true
    | .closedSyllable, .trailing | .trailing, .trailing => true
    | .joiner, .pictograph => followsPictograph earlier
    | .regional, .regional => followsHalfFlag cluster
    | _, _ => isConsonant next && followsLink cluster

/-- The clusters of a text that goes on with a cluster given from its last character on. -/
def clustersFrom (cluster : List Char) : List Char → List (List Char)
  | [] => if cluster.isEmpty then [] else [cluster.reverse]
  | c :: rest =>
    if cluster.isEmpty || continues cluster c then clustersFrom (c :: cluster) rest
    else cluster.reverse :: clustersFrom [c] rest

/-- The clusters of a text. -/
def clusters (text : List Char) : List (List Char) :=
  clustersFrom [] text

/-- Cutting into clusters loses no character. -/
theorem flatten_clustersFrom (cluster text : List Char) :
    (clustersFrom cluster text).flatten = cluster.reverse ++ text := by
  induction text generalizing cluster with
  | nil => cases cluster <;> simp [clustersFrom]
  | cons c rest ih =>
    unfold clustersFrom
    split <;> simp [ih]

/-- A text is its clusters in a row. -/
theorem flatten_clusters (text : List Char) : (clusters text).flatten = text := by
  simp [clusters, flatten_clustersFrom]

end VersionedObjects.Text
