import Mathlib.Data.List.Induction
import Mathlib.Data.List.Nodup
import Mathlib.Logic.Function.Basic
import VersionedObjects.Proofs.Files.Places

/-!
# Trees of files

In a well-formed tree everything has a name and lies in a directory. Making directories and writing
files keeps trees well-formed. It also keeps all directories, and of the files it changes those
that are written: each has the text that was written to it last.
-/

namespace VersionedObjects.Files

namespace Tree

variable {t t' : Tree} {place p : Place}

/-- Everything has a name and lies in a directory, and there is one thing at a place. -/
structure WellFormed (t : Tree) : Prop where
  nodup : (t.entries.map (·.1)).Nodup
  lies : ∀ place ∈ t.entries.map (·.1), ∃ directory name, place = directory ++ [name] ∧
    IsName name ∧ t.node? directory = some .directory

/-- Something may be put at the place: it has a name there and lies in a directory. -/
def HasRoom (t : Tree) (place : Place) : Prop :=
  ∃ directory name, place = directory ++ [name] ∧ IsName name ∧
    t.node? directory = some .directory

/-! ## What is at a place -/

/-- The root is a directory. -/
theorem node?_root (t : Tree) : t.node? Place.root = some .directory :=
  if_pos (.inl rfl)

/-- The working directory is a directory. -/
theorem node?_workingDirectory (t : Tree) : t.node? Place.workingDirectory = some .directory :=
  if_pos (.inr rfl)

/-- The root and the working directory have no name in another directory. -/
theorem not_above_of_isName {name : String} (h : IsName name) (directory : Place) :
    ¬ (directory ++ [name] = Place.root ∨ directory ++ [name] = Place.workingDirectory) := by
  rintro (hroot | hworking)
  · exact List.append_ne_nil_of_right_ne_nil directory (List.cons_ne_nil name []) hroot
  · have hlast := congrArg List.getLast? hworking
    rw [List.getLast?_concat] at hlast
    exact h.ne_empty (Option.some.inj hlast)

/-- Nothing is put in place of the root or of the working directory. -/
theorem HasRoom.not_above (h : t.HasRoom place) :
    ¬ (place = Place.root ∨ place = Place.workingDirectory) := by
  obtain ⟨directory, name, rfl, hname, -⟩ := h
  exact not_above_of_isName hname directory

/-- Where something is there is room for it. -/
theorem WellFormed.hasRoom (h : t.WellFormed) {node : Node} (hnode : t.node? place = some node)
    (habove : ¬ (place = Place.root ∨ place = Place.workingDirectory)) : t.HasRoom place := by
  rw [node?, if_neg habove] at hnode
  obtain ⟨front, back, hentries, -⟩ := List.lookup_eq_some_iff.mp hnode
  refine h.lies place (List.mem_map.mpr ⟨(place, node), ?_, rfl⟩)
  rw [hentries]
  exact List.mem_append_right _ (List.mem_cons_self ..)

/-- The directory above a directory is one. -/
theorem WellFormed.node?_dropLast (h : t.WellFormed) (hplace : t.node? place = some .directory) :
    t.node? place.dropLast = some .directory := by
  by_cases habove : place = Place.root ∨ place = Place.workingDirectory
  · obtain rfl | rfl := habove
    · exact t.node?_root
    · exact t.node?_root
  · obtain ⟨directory, name, rfl, -, hdirectory⟩ := h.hasRoom hplace habove
    rwa [List.dropLast_concat]

/-- What lies above something is a directory. By induction on the names between them. -/
theorem WellFormed.node?_of_append (h : t.WellFormed) {names : List String}
    (hnames : ∀ name ∈ names, IsName name) (hne : names ≠ []) {node : Node}
    (hnode : t.node? (place ++ names) = some node) : t.node? place = some .directory := by
  induction names using List.reverseRecOn generalizing node with
  | nil => exact absurd rfl hne
  | append_singleton names name ih =>
    rw [← List.append_assoc] at hnode
    have hname : IsName name := hnames name (by simp)
    obtain ⟨directory, last, heq, -, hdirectory⟩ :=
      h.hasRoom hnode (not_above_of_isName hname (place ++ names))
    obtain ⟨rfl, -⟩ := List.append_inj' heq rfl
    by_cases hlast : names = []
    · rw [hlast, List.append_nil] at hdirectory
      exact hdirectory
    · exact ih (fun other hother => hnames other (List.mem_append_left _ hother)) hlast hdirectory

/-- What is put is there, and all else as before. -/
theorem node?_put (h : t.HasRoom place) (node : Node) (q : Place) :
    (t.put place node).node? q = if q = place then some node else t.node? q := by
  have hkept : (t.entries.filter (·.1 ≠ place)).lookup q =
      if q = place then none else t.entries.lookup q := by
    induction t.entries with
    | nil => simp
    | cons entry rest ih =>
      obtain ⟨other, found⟩ := entry
      rw [List.filter_cons]
      by_cases hother : other = place
      · subst hother
        by_cases hq : q = other
        · simpa [hq] using ih
        · simpa [hq, List.lookup_cons, beq_eq_false_iff_ne.mpr hq] using ih
      · by_cases hq : q = other
        · subst hq
          simp [hother]
        · simpa [hother, List.lookup_cons, beq_eq_false_iff_ne.mpr hq] using ih
  by_cases hq : q = place
  · subst hq
    rw [node?, if_neg h.not_above, if_pos rfl, put, List.lookup_append, hkept, if_pos rfl]
    simp
  · rw [node?, node?, put, List.lookup_append, hkept, if_neg hq, if_neg hq]
    simp [List.lookup_cons, beq_eq_false_iff_ne.mpr hq]

/-- Something may be put where a path leads, unless a directory is there. By induction on the
parts. -/
theorem WellFormed.follow (h : t.WellFormed) {ps : List String}
    (hparts : ∀ part ∈ ps, '/' ∉ part.toList)
    (hplace : t.node? place = some .directory ∨ t.HasRoom place)
    (hfollow : t.follow place ps = .ok p) :
    t.node? p = some .directory ∨ t.HasRoom p := by
  induction ps generalizing place with
  | nil => cases hfollow; exact hplace
  | cons part rest ih =>
    rw [List.forall_mem_cons] at hparts
    rw [Tree.follow] at hfollow
    split at hfollow
    · cases hfollow
    · cases hfollow
    next hdirectory =>
    split at hfollow
    · exact ih hparts.2 hplace hfollow
    next hsome =>
    split at hfollow
    · exact ih hparts.2 (.inl (h.node?_dropLast hdirectory)) hfollow
    next hdots =>
    split at hfollow
    · cases hfollow
    next hsize =>
    refine ih hparts.2 (.inr ⟨place, part, rfl, ?_, hdirectory⟩) hfollow
    exact { ne_empty := fun hempty => hsome (.inl hempty), ne_dot := fun hdot => hsome (.inr hdot),
            ne_dots := hdots, no_slash := hparts.1, size := Nat.le_of_not_lt hsize }

/-- Where a path leads and no directory is there is room for a file. -/
theorem WellFormed.hasRoom_of_place (h : t.WellFormed) {path : String}
    (hplace : t.place path = .ok p) (hfree : t.node? p ≠ some .directory) : t.HasRoom p := by
  have hstart : t.node? (Place.start path) = some .directory := by
    unfold Place.start
    split
    · exact t.node?_root
    · exact t.node?_workingDirectory
  exact (h.follow (fun _ => no_slash_of_mem_parts) (.inl hstart)
    (place_eq_ok_iff.mp hplace).2).resolve_left hfree

/-- Two dots at the end lead to a directory. -/
theorem WellFormed.node?_of_dots (h : t.WellFormed) (front : List String)
    (hfollow : t.follow place (front ++ [".."]) = .ok p) : t.node? p = some .directory := by
  rw [follow_append] at hfollow
  cases hfront : t.follow place front with
  | error e => rw [hfront] at hfollow; cases hfollow
  | ok q =>
    rw [hfront] at hfollow
    change t.follow q [".."] = .ok p at hfollow
    rw [Tree.follow] at hfollow
    split at hfollow
    · cases hfollow
    · cases hfollow
    next hdirectory =>
    rw [if_neg (by decide), if_pos rfl] at hfollow
    cases hfollow
    exact h.node?_dropLast hdirectory

/-- Names lead to what is there. By induction on the names. -/
theorem WellFormed.follow_names (h : t.WellFormed) {names : List String}
    (hnames : ∀ name ∈ names, IsName name) {node : Node}
    (hnode : t.node? (place ++ names) = some node) :
    t.follow place names = .ok (place ++ names) := by
  induction names generalizing place with
  | nil => rw [List.append_nil, Tree.follow]
  | cons name rest ih =>
    have hdirectory := h.node?_of_append hnames (List.cons_ne_nil name rest) hnode
    rw [List.forall_mem_cons] at hnames
    obtain ⟨hname, hrest⟩ := hnames
    rw [List.append_cons] at hnode ⊢
    rw [Tree.follow, hdirectory]
    dsimp only
    rw [if_neg (not_or.mpr ⟨hname.ne_empty, hname.ne_dot⟩), if_neg hname.ne_dots,
      if_neg (Nat.not_lt.mpr hname.size)]
    exact ih hrest hnode

/-- A tree stays well formed when something is put where there is room, unless it takes the place of
a directory. -/
theorem WellFormed.put (h : t.WellFormed) (hroom : t.HasRoom place) {node : Node}
    (hkeeps : t.node? place = some .directory → node = .directory) :
    (t.put place node).WellFormed := by
  have hdirectory (q : Place) (hq : t.node? q = some .directory) :
      (t.put place node).node? q = some .directory := by
    rw [node?_put hroom]
    split
    · next heq => rw [hkeeps (heq ▸ hq)]
    · exact hq
  have hroom' (q : Place) (hq : t.HasRoom q) : (t.put place node).HasRoom q := by
    obtain ⟨directory, name, heq, hname, hin⟩ := hq
    exact ⟨directory, name, heq, hname, hdirectory directory hin⟩
  have hplaces : ((t.put place node).entries.map (·.1)) =
      (t.entries.map (·.1)).filter (· ≠ place) ++ [place] := by
    rw [Tree.put, List.map_append, List.filter_map]
    rfl
  refine ⟨?_, fun q hq => ?_⟩
  · rw [hplaces]
    refine List.Nodup.append (h.nodup.filter _) (List.nodup_singleton place) ?_
    rw [List.disjoint_singleton]
    simp
  · rw [hplaces] at hq
    obtain hq | hq := List.mem_append.mp hq
    · exact hroom' q (h.lies q (List.mem_of_mem_filter hq))
    · rw [List.mem_singleton.mp hq]
      exact hroom' place hroom

/-- A directory lists names, each once. -/
theorem WellFormed.list (h : t.WellFormed) {path : String} {names : List String}
    (hlist : t.list path = .ok names) : (∀ name ∈ names, IsName name) ∧ names.Nodup := by
  unfold Tree.list at hlist
  cases hplace : t.place path with
  | error e => rw [hplace] at hlist; cases hlist
  | ok q =>
    have hfind : ∃ g : Place → Option String, names = (t.entries.map (·.1)).filterMap g ∧
        ∀ child name, g child = some name → child = q ++ [name] := by
      refine ⟨fun child => if child.length = q.length + 1 ∧ child.dropLast = q then child.getLast?
        else none, ?_, fun child name hname => ?_⟩
      · rw [hplace] at hlist
        simp only [bind, Except.bind] at hlist
        split at hlist
        · cases hlist
        · split at hlist
          · cases hlist
          · cases hlist
            rw [List.filterMap_map]
            rfl
      · dsimp only at hname
        split at hname
        · next hchild =>
          rw [← hchild.2]
          exact (List.dropLast_append_getLast? name hname).symm
        · cases hname
    obtain ⟨g, rfl, hg⟩ := hfind
    refine ⟨fun name hname => ?_, h.nodup.filterMap fun a b name ha hb => ?_⟩
    · obtain ⟨child, hchild, hfound⟩ := List.mem_filterMap.mp hname
      obtain ⟨directory, last, heq, hlast, -⟩ := h.lies child hchild
      rw [hg child name hfound] at heq
      obtain ⟨-, hsame⟩ := List.append_inj' heq rfl
      rw [List.cons.inj hsame |>.1]
      exact hlast
    · rw [hg a name ha, hg b name hb]

/-! ## Written files -/

/-- The text of the file at a place. -/
def text? (t : Tree) (place : Place) : Option String :=
  match t.node? place with
  | some (.file text) => some text
  | _ => none

/-- The text at a place is that of the file there. -/
theorem text?_eq_some_iff {text : String} :
    t.text? place = some text ↔ t.node? place = some (.file text) := by
  rw [text?]
  rcases t.node? place with _ | _ | found <;> simp

/-- A file has an entry of its own. -/
theorem mem_places_of_text? {text : String} (h : t.text? place = some text) :
    place ∈ t.entries.map (·.1) := by
  rw [text?_eq_some_iff, node?] at h
  split at h
  · cases h
  · obtain ⟨front, back, hentries, -⟩ := List.lookup_eq_some_iff.mp h
    simp [hentries]

/-- Texts by place after others have been written in order. -/
def overwrite (texts : Place → Option String) (log : List (Place × String)) :
    Place → Option String :=
  log.foldl (fun texts entry => Function.update texts entry.1 (some entry.2)) texts

/-- A place that is not written has the text that it had. -/
theorem overwrite_of_forall_ne {texts : Place → Option String} {log : List (Place × String)}
    (h : ∀ entry ∈ log, entry.1 ≠ place) : overwrite texts log place = texts place := by
  induction log generalizing texts with
  | nil => rfl
  | cons entry rest ih =>
    rw [List.forall_mem_cons] at h
    rw [overwrite, List.foldl_cons]
    exact (ih h.2).trans (Function.update_of_ne (Ne.symm h.1) ..)

/-- The last text that was written is there. -/
theorem overwrite_of_last {texts : Place → Option String} {before after : List (Place × String)}
    {text : String} (h : ∀ entry ∈ after, entry.1 ≠ place) :
    overwrite texts (before ++ (place, text) :: after) place = some text := by
  rw [overwrite, List.foldl_append, List.foldl_cons]
  exact (overwrite_of_forall_ne h).trans (Function.update_self ..)

/-- A tree after files have been written in order and directories have been made. -/
structure Written (log : List (Place × String)) (t t' : Tree) : Prop where
  directory : ∀ place, t.node? place = some .directory → t'.node? place = some .directory
  text : t'.text? = overwrite t.text? log

/-- Where nothing is written the tree is the same. -/
theorem Written.refl (t : Tree) : Written [] t t :=
  ⟨fun _ => id, rfl⟩

/-- What is written after other files is written after them. -/
theorem Written.trans {t'' : Tree} {log log' : List (Place × String)} (h : Written log t t')
    (h' : Written log' t' t'') : Written (log ++ log') t t'' where
  directory place hplace := h'.directory place (h.directory place hplace)
  text := by rw [h'.text, h.text, overwrite, overwrite, overwrite, List.foldl_append]

/-- Paths go on leading where they led. By induction on the parts. -/
theorem Written.follow {log : List (Place × String)} (h : Written log t t') {ps : List String}
    (hfollow : t.follow place ps = .ok p) : t'.follow place ps = .ok p := by
  induction ps generalizing place with
  | nil => exact hfollow
  | cons part rest ih =>
    rw [Tree.follow] at hfollow
    split at hfollow
    · cases hfollow
    · cases hfollow
    next hdirectory =>
    rw [Tree.follow, h.directory place hdirectory]
    dsimp only
    split at hfollow
    · next hsome => rw [if_pos hsome]; exact ih hfollow
    next hsome =>
    rw [if_neg hsome]
    split at hfollow
    · next hdots => rw [if_pos hdots]; exact ih hfollow
    next hdots =>
    rw [if_neg hdots]
    split at hfollow
    · cases hfollow
    next hsize =>
    rw [if_neg hsize]
    exact ih hfollow

/-- A path leads to the same place after files were written. -/
theorem Written.place_eq_ok {log : List (Place × String)} (h : Written log t t') {path : String}
    (hplace : t.place path = .ok p) : t'.place path = .ok p :=
  place_eq_ok_iff.mpr ⟨(place_eq_ok_iff.mp hplace).1, h.follow (place_eq_ok_iff.mp hplace).2⟩

/-- To put a file overwrites the text at its place. -/
theorem text?_put (hroom : t.HasRoom place) (text : String) :
    (t.put place (.file text)).text? = overwrite t.text? [(place, text)] := by
  funext q
  rw [text?, node?_put hroom, overwrite, List.foldl_cons, List.foldl_nil, Function.update_apply]
  by_cases hq : q = place
  · rw [if_pos hq, if_pos hq]
  · rw [if_neg hq, if_neg hq, text?]

/-! ## Making directories and writing files -/

/-- A path is read as the text at the place that it leads to. -/
theorem read_eq_ok_iff {path text : String} : t.read path = .ok text ↔
    ∃ p, t.place path = .ok p ∧ t.text? p = some text := by
  unfold Tree.read Tree.find Tree.text?
  cases t.place path with
  | error e => simp [bind, Except.bind]
  | ok q =>
    rcases hnode : t.node? q with _ | _ | found <;>
      simp [bind, Except.bind, pure, Except.pure, throw, throwThe, MonadExceptOf.throw, hnode]

/-- To make a directory leaves a tree well formed and every file as it was. -/
theorem WellFormed.makeDirectory (h : t.WellFormed) {path : String}
    (hmake : t.makeDirectory path = .ok t') : t'.WellFormed ∧ Written [] t t' := by
  unfold Tree.makeDirectory at hmake
  cases hfolder : t.folder path with
  | error e => rw [hfolder] at hmake; cases hmake
  | ok folder =>
    cases hplace : t.place (dropSlashes path) with
    | error e => rw [hfolder, hplace] at hmake; cases hmake
    | ok q =>
      rw [hfolder, hplace] at hmake
      simp only [bind, Except.bind] at hmake
      split at hmake
      · cases hmake
      next hfree =>
      cases hmake
      have hroom : t.HasRoom q := h.hasRoom_of_place hplace (by rw [hfree]; nofun)
      refine ⟨h.put hroom fun _ => rfl, ⟨fun r hr => ?_, funext fun r => ?_⟩⟩
      · rw [node?_put hroom]
        split
        · rfl
        · exact hr
      · rw [text?, node?_put hroom, overwrite, List.foldl_nil, text?]
        by_cases hr : r = q
        · rw [if_pos hr, hr, hfree]
        · rw [if_neg hr]

/-- What is written is at the place of the path, and no directory was there. -/
theorem WellFormed.write (h : t.WellFormed) {path text : String}
    (hwrite : t.write path text = .ok t') : t'.WellFormed ∧
      t.place path = .ok (Place.ofPath path) ∧ t.node? (Place.ofPath path) ≠ some .directory ∧
      Written [(Place.ofPath path, text)] t t' := by
  unfold Tree.write at hwrite
  cases hfolder : t.folder path with
  | error e => rw [hfolder] at hwrite; cases hwrite
  | ok folder =>
    cases hplace : t.place path with
    | error e =>
      rw [hfolder, hplace] at hwrite
      simp only [bind, Except.bind] at hwrite
      split at hwrite <;> cases hwrite
    | ok q =>
      obtain rfl := eq_ofPath_of_place hplace
      rw [hfolder, hplace] at hwrite
      simp only [bind, Except.bind] at hwrite
      split at hwrite
      · cases hwrite
      split at hwrite
      · cases hwrite
      next hfree =>
      cases hwrite
      have hroom := h.hasRoom_of_place hplace hfree
      refine ⟨h.put hroom fun hdirectory => absurd hdirectory hfree, rfl, hfree, fun r hr => ?_,
        text?_put hroom text⟩
      rw [node?_put hroom, if_neg]
      · exact hr
      · rintro rfl
        exact hfree hr

end Tree

end VersionedObjects.Files
