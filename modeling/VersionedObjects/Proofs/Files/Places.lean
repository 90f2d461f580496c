import VersionedObjects.Files.Machine

/-!
# The places of paths

A path leads to one place at most, which its parts alone tell: a tree decides only whether the path
leads there. A path below a directory leads to the place below that of the directory. The name of a
file is its stem, a dot and its extension; another extension leaves the stem.
-/

namespace VersionedObjects.Files

/-! ## Parts of paths -/

/-- The text can be the name of a file or directory. -/
structure IsName (name : String) : Prop where
  ne_empty : name ≠ ""
  ne_dot : name ≠ "."
  ne_dots : name ≠ ".."
  no_slash : '/' ∉ name.toList
  size : name.utf8ByteSize ≤ maxNameSize

/-- A text without a slash is the one part of itself. -/
theorem parts_of_no_slash {name : String} (h : '/' ∉ name.toList) : parts name = [name] := by
  rw [parts, List.splitOn_eq_singleton h, List.map_singleton, String.ofList_toList]

/-- A name is the one part of itself. -/
theorem IsName.parts {name : String} (h : IsName name) : parts name = [name] :=
  parts_of_no_slash h.no_slash

/-- A name is a relative path. -/
theorem IsName.isAbsolute {name : String} (h : IsName name) : isAbsolute name = false := by
  rw [Files.isAbsolute, beq_eq_false_iff_ne]
  exact fun hhead => h.no_slash (List.mem_of_mem_head? hhead)

/-- Every path has parts. -/
theorem parts_ne_nil (path : String) : parts path ≠ [] := by
  rw [parts, ne_eq, List.map_eq_nil_iff]
  exact List.splitOn_ne_nil '/' path.toList

/-- A slash separates the parts before it from those after it. -/
theorem parts_append_slash (front back : String) :
    parts (front ++ "/" ++ back) = parts front ++ parts back := by
  have hchars : (front ++ "/" ++ back).toList = front.toList ++ '/' :: back.toList := by
    simp
  rw [parts, hchars, List.splitOn_append_cons_self, List.map_append]
  rfl

/-- By induction on the text. -/
theorem no_slash_of_mem_splitOn {s part : List Char} (h : part ∈ s.splitOn '/') : '/' ∉ part := by
  induction s generalizing part with
  | nil =>
    rw [List.splitOn_nil, List.mem_singleton] at h
    rw [h]
    exact List.not_mem_nil
  | cons c s ih =>
    rw [List.splitOn_cons_eq_if_modifyHead] at h
    split at h
    · obtain rfl | h := List.mem_cons.mp h
      · exact List.not_mem_nil
      · exact ih h
    · next hc =>
      obtain ⟨first, more, hsplit⟩ := List.exists_cons_of_ne_nil (List.splitOn_ne_nil '/' s)
      rw [hsplit] at h ih
      obtain rfl | h := List.mem_cons.mp h
      · intro hmem
        obtain heq | hmem := List.mem_cons.mp hmem
        · exact hc (beq_iff_eq.mpr heq.symm)
        · exact ih (List.mem_cons_self ..) hmem
      · exact ih (List.mem_cons_of_mem _ h)

/-- No part of a path has a slash in it. -/
theorem no_slash_of_mem_parts {path part : String} (h : part ∈ parts path) :
    '/' ∉ part.toList := by
  obtain ⟨chars, hchars, rfl⟩ := List.mem_map.mp h
  rw [String.toList_ofList]
  exact no_slash_of_mem_splitOn hchars

/-- Names joined by slashes have these names as parts. -/
theorem parts_intercalate {names : List String} (h : ∀ name ∈ names, '/' ∉ name.toList)
    (hne : names ≠ []) : parts (String.intercalate "/" names) = names := by
  have hslash : ∀ chars ∈ names.map String.toList, '/' ∉ chars := by
    simpa using h
  have hchars : (String.intercalate "/" names).toList.splitOn '/' = names.map String.toList := by
    rw [String.toList_intercalate]
    exact List.splitOn_intercalate '/' hslash (by simpa using hne)
  rw [parts, hchars, List.map_map]
  simp [Function.comp_def]

/-! ## Places -/

namespace Place

/-- Where parts of a path lead from a place, if they lead anywhere. -/
def after (place : Place) : List String → Place
  | [] => place
  | part :: rest =>
    if part = "" ∨ part = "." then after place rest
    else if part = ".." then after place.dropLast rest
    else after (place ++ [part]) rest

/-- Where a path leads, if it leads anywhere. -/
def ofPath (path : String) : Place :=
  (start path).after (parts path)

/-- Names lead down from a place by one step each. -/
theorem after_names (place : Place) {names : List String} (h : ∀ name ∈ names, IsName name) :
    place.after names = place ++ names := by
  induction names generalizing place with
  | nil => rw [after, List.append_nil]
  | cons name rest ih =>
    rw [List.forall_mem_cons] at h
    rw [after, if_neg (not_or.mpr ⟨h.1.ne_empty, h.1.ne_dot⟩), if_neg h.1.ne_dots, ih _ h.2,
      List.append_assoc, List.singleton_append]

end Place

namespace Tree

variable {t : Tree}

/-- To follow a way is to follow its front and then its back. -/
theorem follow_append (t : Tree) (place : Place) (front back : List String) :
    t.follow place (front ++ back) = (t.follow place front >>= fun p => t.follow p back) := by
  induction front generalizing place with
  | nil => rfl
  | cons part rest ih =>
    rw [List.cons_append, follow, follow]
    cases t.node? place with
    | none => rfl
    | some node =>
      cases node with
      | file text => rfl
      | directory =>
        dsimp only
        split
        · exact ih place
        split
        · exact ih place.dropLast
        split
        · rfl
        · exact ih (place ++ [part])

/-- By induction on the parts. -/
theorem eq_after_of_follow {place p : Place} {ps : List String} (h : t.follow place ps = .ok p) :
    p = place.after ps := by
  induction ps generalizing place with
  | nil => cases h; rfl
  | cons part rest ih =>
    rw [follow] at h
    rw [Place.after]
    split at h
    · cases h
    · cases h
    split at h
    · next hnone => rw [if_pos hnone]; exact ih h
    · next hsome =>
      rw [if_neg hsome]
      split at h
      · next hdots => rw [if_pos hdots]; exact ih h
      · next hname =>
        rw [if_neg hname]
        split at h
        · cases h
        · exact ih h

/-- An empty part is looked up in a directory, as the part after it is. -/
theorem follow_empty_cons {rest : List String} (t : Tree) (place : Place) (hrest : rest ≠ []) :
    t.follow place ("" :: rest) = t.follow place rest := by
  obtain ⟨part, more, rfl⟩ := List.exists_cons_of_ne_nil hrest
  rw [follow]
  cases hnode : t.node? place with
  | none => rw [follow, hnode]
  | some node =>
    cases node with
    | directory => exact if_pos (.inl rfl)
    | file text => rw [follow, hnode]

/-- A path leads to a place exactly if it has no fault and its parts can be followed. -/
theorem place_eq_ok_iff {path : String} {p : Place} : t.place path = .ok p ↔
    pathFault? path = none ∧ t.follow (Place.start path) (parts path) = .ok p := by
  rw [place]
  cases pathFault? path <;> simp

/-- The place that a path leads to can be told without looking at the tree. -/
theorem eq_ofPath_of_place {path : String} {p : Place} (h : t.place path = .ok p) :
    p = Place.ofPath path :=
  eq_after_of_follow (place_eq_ok_iff.mp h).2

end Tree

/-- An absolute path has an empty part in front. -/
theorem exists_parts_of_isAbsolute {path : String} (h : isAbsolute path = true) :
    ∃ more, parts path = "" :: more := by
  rw [isAbsolute, beq_iff_eq] at h
  obtain ⟨rest, hchars⟩ := List.head?_eq_some_iff.mp h
  have hpath : path = "" ++ "/" ++ String.ofList rest :=
    String.toList_injective (by rw [hchars]; simp)
  exact ⟨parts (String.ofList rest), by rw [hpath, parts_append_slash]; rfl⟩

/-! ## Paths below a directory -/

section Join

variable {path : String}

/-- A path that can only be a directory ends in a slash. -/
theorem exists_slash_of_endsInSlash {directory : String} (h : endsInSlash directory = true) :
    ∃ front, directory = front ++ "/" := by
  rw [endsInSlash, beq_iff_eq] at h
  obtain ⟨front, hchars⟩ := List.getLast?_eq_some_iff.mp h
  refine ⟨String.ofList front, String.toList_injective ?_⟩
  rw [hchars]
  simp

/-- Where a path starts is settled by its front. -/
theorem start_append {front : String} (h : front ≠ "") (back : String) :
    Place.start (front ++ back) = Place.start front := by
  have hchars : front.toList ≠ [] := fun hnil => h (String.toList_eq_nil_iff.mp hnil)
  obtain ⟨c, rest, hcons⟩ := List.exists_cons_of_ne_nil hchars
  rw [Place.start, Place.start, isAbsolute, isAbsolute, String.toList_append, hcons]
  rfl

/-- A relative path that is joined to a directory starts where the directory does. -/
theorem start_join (h : isAbsolute path = false) (directory : String) :
    Place.start (join directory path) = Place.start directory := by
  by_cases hempty : directory = ""
  · rw [join, if_pos (.inr hempty), hempty, Place.start, Place.start, h]
    rfl
  · rw [join, if_neg (by simp [h, hempty])]
    split
    · exact start_append hempty path
    · rw [String.append_assoc]
      exact start_append hempty _

/-- The parts of the path come last. -/
theorem exists_parts_join (h : isAbsolute path = false) (directory : String) :
    ∃ front, parts (join directory path) = front ++ parts path := by
  by_cases hempty : directory = ""
  · exact ⟨[], by rw [join, if_pos (.inr hempty), List.nil_append]⟩
  · rw [join, if_neg (by simp [h, hempty])]
    split
    · next hslash =>
      obtain ⟨front, rfl⟩ := exists_slash_of_endsInSlash hslash
      exact ⟨parts front, parts_append_slash front path⟩
    · exact ⟨parts directory, parts_append_slash directory path⟩

/-- A path below a directory leads on from the place of the directory. -/
theorem Tree.follow_join (h : isAbsolute path = false) (t : Tree) (directory : String) :
    t.follow (Place.start (join directory path)) (parts (join directory path)) =
      (t.follow (Place.start directory) (parts directory) >>= fun p =>
        t.follow p (parts path)) := by
  rw [start_join h]
  by_cases hempty : directory = ""
  · have hstart : t.follow (Place.start "") (parts "") = .ok Place.workingDirectory := by
      have hworking : t.node? Place.workingDirectory = some .directory := if_pos (.inr rfl)
      have hparts : parts "" = [""] := by decide
      have hplace : Place.start "" = Place.workingDirectory := by decide
      rw [hparts, hplace, follow, hworking]
      exact if_pos (.inl rfl)
    rw [hempty, hstart, join, if_pos (.inr rfl)]
    rfl
  · rw [join, if_neg (by simp [h, hempty])]
    split
    · next hslash =>
      obtain ⟨front, rfl⟩ := exists_slash_of_endsInSlash hslash
      have hdirectory : parts (front ++ "/") = parts front ++ [""] := by
        have hparts := parts_append_slash front ""
        rwa [String.append_empty] at hparts
      rw [parts_append_slash, hdirectory, follow_append, follow_append, bind_assoc]
      refine congrArg _ (funext fun p => ?_)
      rw [← follow_append, List.singleton_append, follow_empty_cons t p (parts_ne_nil path)]
    · rw [parts_append_slash, follow_append]

/-- The same for directories one below the other. By induction on the way. -/
theorem Tree.follow_foldl_join {way : List String} (h : ∀ name ∈ way, IsName name) (t : Tree)
    (directory : String) :
    t.follow (Place.start (way.foldl join directory)) (parts (way.foldl join directory)) =
      (t.follow (Place.start directory) (parts directory) >>= fun p => t.follow p way) := by
  induction way generalizing directory with
  | nil => exact (bind_pure _).symm
  | cons name rest ih =>
    rw [List.forall_mem_cons] at h
    rw [List.foldl_cons, ih h.2, follow_join h.1.isAbsolute, bind_assoc]
    refine congrArg _ (funext fun p => ?_)
    rw [h.1.parts, ← follow_append, List.singleton_append]

/-- Names that are joined to a directory one by one lead down from its place. -/
theorem Tree.eq_of_place_foldl_join {way : List String} (h : ∀ name ∈ way, IsName name)
    {t : Tree} {directory : String} {p : Place}
    (hplace : t.place (way.foldl join directory) = .ok p) :
    p = Place.ofPath directory ++ way := by
  have hfollow := (place_eq_ok_iff.mp hplace).2
  rw [follow_foldl_join h] at hfollow
  cases hdirectory : t.follow (Place.start directory) (parts directory) with
  | error e => rw [hdirectory] at hfollow; cases hfollow
  | ok q =>
    obtain rfl : q = Place.ofPath directory := eq_after_of_follow hdirectory
    rw [hdirectory] at hfollow
    exact (eq_after_of_follow hfollow).trans (Place.after_names _ h)

/-- The file name of a name joined to a directory is the name. -/
theorem fileName?_join {name : String} (h : IsName name) (directory : String) :
    fileName? (join directory name) = some name := by
  obtain ⟨front, hparts⟩ := exists_parts_join h.isAbsolute directory
  rw [fileName?, namingParts, hparts, h.parts, List.filter_append]
  simp [h.ne_empty, h.ne_dot, h.ne_dots]

/-- The file name of a name is itself. -/
theorem IsName.fileName? {name : String} (h : IsName name) : fileName? name = some name := by
  have hjoin := fileName?_join h ""
  rwa [join, if_pos (.inr rfl)] at hjoin

/-- The extension is that of the name. -/
theorem lowerExtension?_join {name : String} (h : IsName name) (directory : String) :
    lowerExtension? (join directory name) = lowerExtension? name := by
  rw [lowerExtension?, lowerExtension?, extension?, extension?, fileName?_join h, h.fileName?]

end Join

/-! ## Extensions -/

/-- A file name without its extension. -/
def stem (name : String) : String :=
  match splitExtension? name with
  | some (stem, _) => stem
  | none => name

/-- A file name is cut at its last dot. -/
theorem splitExtension?_of_eq {stem extension : String} (hstem : stem ≠ "")
    (hextension : '.' ∉ extension.toList) :
    splitExtension? (stem ++ "." ++ extension) = some (stem, extension) := by
  have hchars : (stem ++ "." ++ extension).toList.reverse =
      extension.toList.reverse ++ '.' :: stem.toList.reverse := by
    simp
  have hafter : (extension.toList.reverse ++ '.' :: stem.toList.reverse).takeWhile (· ≠ '.') =
      extension.toList.reverse := by
    rw [List.takeWhile_append_of_pos]
    · simp
    · intro c hc
      have hne : c ≠ '.' := by
        rintro rfl
        exact hextension (List.mem_reverse.mp hc)
      simpa using hne
  obtain ⟨c, rest, hcons⟩ : ∃ c rest, stem.toList.reverse = c :: rest :=
    List.exists_cons_of_ne_nil (by simpa using hstem)
  have hback : (c :: rest).reverse = stem.toList := by rw [← hcons, List.reverse_reverse]
  rw [splitExtension?, hchars, hafter, List.drop_left, hcons]
  change some (String.ofList (c :: rest).reverse,
    String.ofList extension.toList.reverse.reverse) = _
  rw [hback, String.ofList_toList, List.reverse_reverse, String.ofList_toList]

/-- A name is its stem, a dot and its extension. -/
theorem eq_of_splitExtension? {name stem extension : String}
    (h : splitExtension? name = some (stem, extension)) :
    stem ≠ "" ∧ name = stem ++ "." ++ extension := by
  unfold splitExtension? at h
  dsimp only at h
  split at h
  · next found c rest hrest =>
    cases h
    have hreversed := List.prefix_iff_eq_append.mp
      (List.takeWhile_prefix (· ≠ '.') : _ <+: name.toList.reverse)
    rw [hrest] at hreversed
    generalize name.toList.reverse.takeWhile (· ≠ '.') = extension at hreversed
    refine ⟨by simp, String.toList_injective ?_⟩
    rw [← List.reverse_inj, ← hreversed]
    simp
  · cases h

/-- A name without its extension is not empty. -/
theorem stem_ne_empty {name : String} (h : name ≠ "") : stem name ≠ "" := by
  unfold stem
  cases hsplit : splitExtension? name with
  | none => exact h
  | some found => exact (eq_of_splitExtension? hsplit).1

/-- A name without its extension has no slash in it either. -/
theorem no_slash_stem {name : String} (h : '/' ∉ name.toList) : '/' ∉ (stem name).toList := by
  unfold stem
  cases hsplit : splitExtension? name with
  | none => exact h
  | some found =>
    intro hmem
    rw [(eq_of_splitExtension? hsplit).2] at h
    exact h (by simp [hmem])

/-- A stem of one dot apart, only the extension is replaced. -/
theorem withExtension_eq {name : String} (h : stem name ≠ ".") (extension : String) :
    withExtension name extension = stem name ++ "." ++ extension := by
  unfold withExtension
  unfold stem at h ⊢
  split
  · next hsplit => rw [hsplit] at h; exact absurd rfl h
  · next hsplit => rw [hsplit]
  · next hsplit => rw [hsplit]

/-- A stem of one dot gives the name of the directory above. -/
theorem withExtension_eq_dots {name : String} (hname : name ≠ ".") (h : stem name = ".")
    (extension : String) : withExtension name extension = ".." := by
  unfold withExtension
  unfold stem at h
  cases hsplit : splitExtension? name with
  | none => rw [hsplit] at h; exact absurd h hname
  | some found =>
    obtain ⟨stem, other⟩ := found
    rw [hsplit] at h
    obtain rfl : stem = "." := h
    rfl

/-- With the same extension, names of different stems are different. -/
theorem stem_eq_of_withExtension {name other : String} (h : stem name ≠ ".")
    (hother : stem other ≠ ".") {extension : String}
    (heq : withExtension name extension = withExtension other extension) :
    stem name = stem other := by
  rw [withExtension_eq h, withExtension_eq hother, String.append_assoc, String.append_assoc] at heq
  exact (String.append_left_inj _).mp heq

end VersionedObjects.Files
