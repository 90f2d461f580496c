import VersionedObjects.Proofs.Store.Renaming

/-!
# Worlds in which a frame idles

Two worlds in which the same frames were opened, entered, held and closed, and in one of which one
of the frames idles: it writes nothing and makes nothing. The objects of that world are those of the
other one that the frame did not make, under the numbers of their positions among them. This module
is about what worlds are apart from their ledgers.
-/

namespace VersionedObjects.Store

variable {α : Type}

/-- One frame wrote and made nothing, whatever the other one did, and is otherwise in the same
state, but for how it was closed. The write observer, if there is one, does not close the frame. -/
structure Frame.Idles (idle busy : Frame) : Prop where
  manager_eq : idle.manager = busy.manager
  view_eq : idle.view = busy.view
  readOnly_eq : idle.options.readOnly = busy.options.readOnly
  holders_eq : idle.holders = busy.holders
  isActive_eq : idle.isActive = busy.isActive
  touched_eq : idle.touched = []
  quiet : busy.options.observed = false ∨ busy.options.onFirstWrite = none

/-- What a frame touches is noted. -/
def Frame.touching (o : ObjectId) (frame : Frame) : Frame :=
  if frame.touched.contains o then frame else { frame with touched := frame.touched ++ [o] }

/-- What a frame writes is noted, the first time. -/
def Frame.writing (o : ObjectId) (frame : Frame) : Frame :=
  if frame.written.contains o then frame
  else Frame.touching o { frame with written := frame.written ++ [o] }

namespace Frame

variable {idle busy frame : Frame} {o : ObjectId} {others : List ObjectId}

/-- A frame that touched nothing lists nothing. -/
theorem Idles.listed_eq (h : idle.Idles busy) : idle.listed = [] := by
  have hperm := idle.listed_perm
  rw [h.touched_eq] at hperm
  exact hperm.eq_nil

/-- The busy frame may touch any object. -/
theorem Idles.touching (h : idle.Idles busy) (o : ObjectId) : idle.Idles (busy.touching o) := by
  unfold Frame.touching
  split
  · exact h
  · exact { h with }

/-- The busy frame may write any object. -/
theorem Idles.writing (h : idle.Idles busy) (o : ObjectId) : idle.Idles (busy.writing o) := by
  unfold Frame.writing
  split
  · exact h
  · have hwritten : idle.Idles { busy with written := busy.written ++ [o] } := { h with }
    exact hwritten.touching o

/-- An observer that does not close the busy frame goes on so after a first write. -/
theorem Idles.afterFirstWrite_left (h : idle.Idles busy) :
    idle.Idles { busy with options := busy.options.afterFirstWrite } :=
  { h with
    readOnly_eq := h.readOnly_eq.trans busy.options.readOnly_afterFirstWrite.symm
    quiet := h.quiet.imp busy.options.observed_afterFirstWrite.trans
      FrameOptions.afterFirstWrite_quiet }

/-- The observers of both frames may be told of a first write. -/
theorem Idles.afterFirstWrite (h : idle.Idles busy) :
    Idles { idle with options := idle.options.afterFirstWrite }
      { busy with options := busy.options.afterFirstWrite } :=
  { h.afterFirstWrite_left with
    readOnly_eq := by
      rw [idle.options.readOnly_afterFirstWrite]
      exact h.afterFirstWrite_left.readOnly_eq }

/-- A first write is reported alike under the new names. -/
theorem renamed_afterFirstWrite (others : List ObjectId) (frame : Frame) :
    { frame.renamed others with options := (frame.renamed others).options.afterFirstWrite } =
      Frame.renamed others { frame with options := frame.options.afterFirstWrite } := by
  rw [renamed, FrameOptions.afterFirstWrite_renamed, renamed]

/-- A renamed frame touched the new names of what it touched. -/
theorem contains_touched_renamed (ho : o ∈ others) (frame : Frame) :
    (frame.renamed others).touched.contains (others.idxOf o) = frame.touched.contains o := by
  rw [Bool.eq_iff_iff, List.contains_iff_mem, List.contains_iff_mem]
  exact mem_positions_idxOf ho _

/-- A renamed frame wrote the new names of what it wrote. -/
theorem contains_written_renamed (ho : o ∈ others) (frame : Frame) :
    (frame.renamed others).written.contains (others.idxOf o) = frame.written.contains o := by
  rw [Bool.eq_iff_iff, List.contains_iff_mem, List.contains_iff_mem]
  exact mem_positions_idxOf ho _

/-- To touch an object among others is to touch it under its new name. -/
theorem renamed_touching (ho : o ∈ others) (frame : Frame) :
    (frame.touching o).renamed others = (frame.renamed others).touching (others.idxOf o) := by
  rw [touching, touching, contains_touched_renamed ho]
  split
  · rfl
  · simp only [renamed, positions_append, positions_cons_of_mem ho, positions_nil]

/-- To write an object among others is to write it under its new name. -/
theorem renamed_writing (ho : o ∈ others) (frame : Frame) :
    (frame.writing o).renamed others = (frame.renamed others).writing (others.idxOf o) := by
  rw [writing, writing, contains_written_renamed ho]
  split
  · rfl
  · rw [renamed_touching ho]
    simp only [renamed, positions_append, positions_cons_of_mem ho, positions_nil]

/-- Nobody among others can tell that a frame touched an object that is not among them. -/
theorem renamed_touching_of_notMem (ho : o ∉ others) (frame : Frame) :
    (frame.touching o).renamed others = frame.renamed others := by
  rw [touching]
  split
  · rfl
  · simp only [renamed, positions_append, positions_cons_of_notMem ho, positions_nil,
      List.append_nil]

/-- Nobody among others can tell that a frame wrote an object that is not among them. -/
theorem renamed_writing_of_notMem (ho : o ∉ others) (frame : Frame) :
    (frame.writing o).renamed others = frame.renamed others := by
  rw [writing]
  split
  · rfl
  · rw [renamed_touching_of_notMem ho]
    simp only [renamed, positions_append, positions_cons_of_notMem ho, positions_nil,
      List.append_nil]

end Frame

namespace World

variable {a b u v w : World α} {f k : FrameId} {o : ObjectId} {others all : List ObjectId}

/-- To touch an object is noted in the outline by its frame. -/
theorem outline_touch_touching (w : World α) (f : FrameId) (o : ObjectId) :
    (w.touch f o).outline = w.outline.modifyFrame f (Frame.touching o) :=
  rfl

/-- A change to a frame depends on nothing but that frame. -/
theorem Outline.modifyFrame_congr {g g' : Frame → Frame} (h : g (w.frame f) = g' (w.frame f)) :
    w.outline.modifyFrame f g = w.outline.modifyFrame f g' := by
  have hframes : w.frames.modify f g = w.frames.modify f g' := by
    refine List.ext_getElem? fun i => ?_
    rw [List.getElem?_modify, List.getElem?_modify]
    split
    · next heq =>
      subst heq
      cases hframe : w.frames[f]? with
      | none => rfl
      | some found =>
        have hfound : w.frame f = found := by rw [World.frame, hframe, Option.getD_some]
        rw [hfound] at h
        exact congrArg some h
    · rfl
  rw [Outline.modifyFrame, Outline.modifyFrame]
  exact congrArg (fun frames => { w.outline with frames := frames }) hframes

/-- A change of a frame that changes nothing is none. -/
theorem Outline.modifyFrame_id (outline : Outline α) (f : FrameId) :
    outline.modifyFrame f id = outline := by
  rw [Outline.modifyFrame, List.modify_id]

/-- To note a write is noted in the outline by its frame. -/
theorem outline_noteWrite (w : World α) (f : FrameId) (o : ObjectId) :
    (w.noteWrite f o).outline = w.outline.modifyFrame f (Frame.writing o) := by
  unfold noteWrite
  split
  · next hwritten =>
    have hsame : id (w.frame f) = Frame.writing o (w.frame f) := by
      rw [Frame.writing, if_pos hwritten, id]
    rw [← Outline.modifyFrame_congr hsame, Outline.modifyFrame_id]
  · next hnew =>
    have hsame : (Frame.touching o ∘ fun frame => { frame with written := frame.written ++ [o] })
        (w.frame f) = Frame.writing o (w.frame f) := by
      rw [Frame.writing, if_neg hnew, Function.comp_apply]
    rw [outline_touch_touching, outline_modifyFrame, ← Outline.modifyFrame_congr hsame]
    simp only [Outline.modifyFrame, List.modify_modify_eq]

/-- Where the outline has one frame changed, the world has that frame changed. -/
theorem frame_of_modifyFrame {g : Frame → Frame} (h : v.outline = w.outline.modifyFrame f g)
    (hf : f < w.frames.length) (k : FrameId) :
    v.frame k = if k = f then g (w.frame k) else w.frame k := by
  have hframes : v.frames = (w.modifyFrame f g).frames := congrArg Outline.frames h
  rw [frame, hframes]
  exact frame_modifyFrame hf g k

/-- A frame that is added comes last, and the others stay what they were. -/
theorem frame_of_addFrame {new : Frame} (h : v.frames = w.frames ++ [new]) (k : FrameId) :
    v.frame k = if k = w.frames.length then new else w.frame k := by
  rw [frame, h, frame]
  split
  · next hk => simp [hk]
  · next hk =>
    rcases Nat.lt_or_gt_of_ne hk with hlt | hgt
    · rw [List.getElem?_append_left hlt]
    · have hlength : (w.frames ++ [new]).length ≤ k := by
        rw [List.length_append]
        exact hgt
      rw [List.getElem?_eq_none hlength, List.getElem?_eq_none (Nat.le_of_lt hgt)]

/-- Apart from the ledgers the worlds are the same, but for the work of a frame and the objects that
it made; the others are known by their positions. Frames may list objects that are not made yet,
under the positions that these will have among all others of the run. -/
structure Mirrors (b a : World α) (f : FrameId) (others all : List ObjectId) : Prop where
  length_frames : b.frames.length = a.frames.length
  opened : f < a.frames.length
  config_eq : b.outline.config = a.outline.config
  current_eq : b.current = a.current
  other : ∀ k, k ≠ f → b.frame k = (a.frame k).renamed all
  own : (b.frame f).Idles (a.frame f)
  length_objects : b.objects.length = others.length
  known : ∀ o ∈ others, o < a.objects.length
  foresees : Foresees all others a.objects.length
  identity : ∀ o ∈ others, (b.object (others.idxOf o)).typeName = (a.object o).typeName ∧
    (b.object (others.idxOf o)).merge = (a.object o).merge

namespace Mirrors

/-! ## What is the same -/

/-- Every frame has the same view in both worlds. -/
theorem view_eq (h : b.Mirrors a f others all) (k : FrameId) :
    (b.frame k).view = (a.frame k).view := by
  by_cases hk : k = f
  · rw [hk, h.own.view_eq]
  · rw [h.other k hk]
    rfl

/-- Every frame has the same manager in both worlds. -/
theorem manager_eq (h : b.Mirrors a f others all) (k : FrameId) :
    (b.frame k).manager = (a.frame k).manager := by
  by_cases hk : k = f
  · rw [hk, h.own.manager_eq]
  · rw [h.other k hk]
    rfl

/-- Every frame is read-only in both worlds or in neither. -/
theorem readOnly_eq (h : b.Mirrors a f others all) (k : FrameId) :
    (b.frame k).options.readOnly = (a.frame k).options.readOnly := by
  by_cases hk : k = f
  · rw [hk, h.own.readOnly_eq]
  · rw [h.other k hk]
    rfl

/-- The other frames have the same options, but for the names of the objects that they list. -/
theorem options_eq (h : b.Mirrors a f others all) (hk : k ≠ f) :
    (b.frame k).options = (a.frame k).options.renamed all :=
  congrArg Frame.options (h.other k hk)

/-- The observers of the other frames are to do the same. -/
theorem observer_eq (h : b.Mirrors a f others all) (hk : k ≠ f) :
    (b.frame k).options.observed = (a.frame k).options.observed ∧
      (b.frame k).options.closing? = (a.frame k).options.closing? := by
  rw [h.options_eq hk]
  exact ⟨rfl, rfl⟩

/-- The other frames have written the same. -/
theorem contains_written_eq (h : b.Mirrors a f others all) (hk : k ≠ f) (ho : o ∈ others) :
    (b.frame k).written.contains (others.idxOf o) = (a.frame k).written.contains o := by
  rw [h.other k hk, ← h.foresees.idxOf_eq ho]
  exact Frame.contains_written_renamed (h.foresees.mem ho) _

/-- The other frames are in the same state. -/
theorem state_eq (h : b.Mirrors a f others all) (hk : k ≠ f) :
    (b.frame k).state = (a.frame k).state := by
  rw [h.other k hk]
  rfl

/-- As many hold on to a frame in both worlds. -/
theorem holders_eq (h : b.Mirrors a f others all) (k : FrameId) :
    (b.frame k).holders = (a.frame k).holders := by
  by_cases hk : k = f
  · rw [hk, h.own.holders_eq]
  · rw [h.other k hk]
    rfl

/-- Every frame is open in both worlds or in neither. -/
theorem isActive_eq (h : b.Mirrors a f others all) (k : FrameId) :
    (b.frame k).isActive = (a.frame k).isActive := by
  by_cases hk : k = f
  · rw [hk, h.own.isActive_eq]
  · rw [h.other k hk]
    rfl

/-- Every frame has the same generation in both worlds. -/
theorem generation_eq (h : b.Mirrors a f others all) (k : FrameId) :
    (b.frame k).generation = (a.frame k).generation :=
  congrArg Visibility.generation (h.view_eq k)

/-- A manager has the same current frame in both worlds. -/
theorem currentFrameOf?_eq (h : b.Mirrors a f others all) (m : ManagerId) :
    b.currentFrameOf? m = a.currentFrameOf? m := by
  simp only [currentFrameOf?, h.current_eq, h.manager_eq]

/-- New objects belong to the same frame in both worlds. -/
theorem makingFrame?_eq (h : b.Mirrors a f others all) (m : ManagerId) :
    b.makingFrame? m = a.makingFrame? m := by
  simp only [makingFrame?, h.currentFrameOf?_eq, h.isActive_eq, h.readOnly_eq]

/-- The same frames were opened in both worlds. -/
theorem hasFrame_eq (h : b.Mirrors a f others all) (k : FrameId) : b.hasFrame k = a.hasFrame k := by
  rw [hasFrame, hasFrame, h.length_frames]

/-- An object among the others is known in both worlds. -/
theorem hasObject_eq (h : b.Mirrors a f others all) (ho : o ∈ others) :
    b.hasObject (all.idxOf o) = a.hasObject o := by
  have hb : all.idxOf o < b.objects.length := by
    rw [h.foresees.idxOf_eq ho, h.length_objects]
    exact List.idxOf_lt_length_iff.mpr ho
  rw [hasObject_iff.mpr hb, hasObject_iff.mpr (h.known o ho)]

/-- What is not among the others has the number of no object. -/
theorem hasObject_of_notMem (h : b.Mirrors a f others all) (ho : o ∉ others) :
    b.hasObject (all.idxOf o) = false := by
  rw [Bool.eq_false_iff, ne_eq, hasObject_iff, h.length_objects]
  exact Nat.not_lt_of_le (h.foresees.length_le_idxOf ho)

/-! ## What stays so -/

/-- A change to the frames and to who is current. -/
theorem of_frames (h : b.Mirrors a f others all)
    (hv : v.outline = { b.outline with frames := v.frames, current := v.current })
    (hu : u.outline = { a.outline with frames := u.frames, current := u.current })
    (hlength : v.frames.length = u.frames.length) (hopened : f < u.frames.length)
    (hcurrent : v.current = u.current)
    (hother : ∀ k, k ≠ f → v.frame k = (u.frame k).renamed all)
    (hown : (v.frame f).Idles (u.frame f)) : v.Mirrors u f others all := by
  have hvids : v.outline.identities = b.outline.identities := by rw [hv]
  have huids : u.outline.identities = a.outline.identities := by rw [hu]
  have hvconfig : v.outline.config = b.outline.config := by rw [hv]
  have huconfig : u.outline.config = a.outline.config := by rw [hu]
  refine ⟨hlength, hopened, hvconfig.trans (h.config_eq.trans huconfig.symm), hcurrent, hother,
    hown, (length_objects_of_identities hvids).trans h.length_objects, fun o ho => ?_, ?_,
    fun o ho => ?_⟩
  · rw [length_objects_of_identities huids]
    exact h.known o ho
  · rw [length_objects_of_identities huids]
    exact h.foresees
  · obtain ⟨-, htype, hmerge⟩ := object_of_identities hvids (others.idxOf o)
    obtain ⟨-, htype', hmerge'⟩ := object_of_identities huids o
    rw [htype, hmerge, htype', hmerge']
    exact h.identity o ho

/-- Worlds of the same outlines mirror each other as well. -/
theorem congr (h : b.Mirrors a f others all) (hv : v.outline = b.outline)
    (hu : u.outline = a.outline) : v.Mirrors u f others all := by
  have hvframes : v.frames = b.frames := congrArg Outline.frames hv
  have huframes : u.frames = a.frames := congrArg Outline.frames hu
  have hvcurrent : v.current = b.current := congrArg Outline.current hv
  have hucurrent : u.current = a.current := congrArg Outline.current hu
  have hvframe (k : FrameId) : v.frame k = b.frame k := by rw [frame, hvframes, frame]
  have huframe (k : FrameId) : u.frame k = a.frame k := by rw [frame, huframes, frame]
  refine h.of_frames ?_ ?_ ?_ (huframes ▸ h.opened) ?_ (fun k hk => ?_) ?_
  · rw [hv, hvframes, hvcurrent]
    rfl
  · rw [hu, huframes, hucurrent]
    rfl
  · rw [hvframes, huframes, h.length_frames]
  · rw [hvcurrent, hucurrent, h.current_eq]
  · rw [hvframe, huframe, h.other k hk]
  · rw [hvframe, huframe]
    exact h.own

/-- A change to one frame. -/
theorem modifyFrame (h : b.Mirrors a f others all) (hk : k < a.frames.length)
    {gb ga : Frame → Frame}
    (hv : v.outline = b.outline.modifyFrame k gb) (hu : u.outline = a.outline.modifyFrame k ga)
    (hother : k ≠ f → gb ((a.frame k).renamed all) = (ga (a.frame k)).renamed all)
    (hown : k = f → (gb (b.frame f)).Idles (ga (a.frame f))) : v.Mirrors u f others all := by
  have hk' : k < b.frames.length := h.length_frames.symm ▸ hk
  have hvframes : v.frames = (b.modifyFrame k gb).frames := congrArg Outline.frames hv
  have huframes : u.frames = (a.modifyFrame k ga).frames := congrArg Outline.frames hu
  have hvcurrent : v.current = b.current := congrArg Outline.current hv
  have hucurrent : u.current = a.current := congrArg Outline.current hu
  refine h.of_frames ?_ ?_ ?_ ?_ ?_ (fun j hj => ?_) ?_
  · rw [hv, hvframes, hvcurrent]
    rfl
  · rw [hu, huframes, hucurrent]
    rfl
  · rw [hvframes, huframes, length_frames_modifyFrame, length_frames_modifyFrame, h.length_frames]
  · rw [huframes, length_frames_modifyFrame]
    exact h.opened
  · rw [hvcurrent, hucurrent, h.current_eq]
  · rw [frame_of_modifyFrame hv hk', frame_of_modifyFrame hu hk, h.other j hj]
    split
    · next heq => exact heq ▸ hother (heq ▸ hj)
    · rfl
  · rw [frame_of_modifyFrame hv hk', frame_of_modifyFrame hu hk]
    split
    · next heq => exact hown heq.symm
    · exact h.own

/-- A change to one frame of the one world that nobody in the other one can tell. -/
theorem modifyFrame_left (h : b.Mirrors a f others all) (hk : k < a.frames.length)
    {ga : Frame → Frame} (hu : u.outline = a.outline.modifyFrame k ga)
    (hother : k ≠ f → (ga (a.frame k)).renamed all = (a.frame k).renamed all)
    (hown : k = f → (b.frame f).Idles (ga (a.frame f))) : b.Mirrors u f others all :=
  h.modifyFrame hk (Outline.modifyFrame_id b.outline k).symm hu (fun hk => (hother hk).symm) hown

/-- One more frame is opened, which lists objects under their new names. -/
theorem addFrame (h : b.Mirrors a f others all) {new : Frame}
    (hv : v.outline = { b.outline with frames := b.frames ++ [new.renamed all] })
    (hu : u.outline = { a.outline with frames := a.frames ++ [new] }) :
    v.Mirrors u f others all := by
  have hvframes : v.frames = b.frames ++ [new.renamed all] := congrArg Outline.frames hv
  have huframes : u.frames = a.frames ++ [new] := congrArg Outline.frames hu
  have hvcurrent : v.current = b.current := congrArg Outline.current hv
  have hucurrent : u.current = a.current := congrArg Outline.current hu
  have hlength := h.length_frames
  refine h.of_frames ?_ ?_ ?_ ?_ ?_ (fun k hk => ?_) ?_
  · rw [hv, hvframes, hvcurrent]
    rfl
  · rw [hu, huframes, hucurrent]
    rfl
  · rw [hvframes, huframes, List.length_append, List.length_append, hlength]
    rfl
  · rw [huframes, List.length_append]
    exact Nat.lt_add_right _ h.opened
  · rw [hvcurrent, hucurrent, h.current_eq]
  · rw [frame_of_addFrame hvframes, frame_of_addFrame huframes, hlength, h.other k hk]
    split <;> rfl
  · have hne : f ≠ a.frames.length := Nat.ne_of_lt h.opened
    rw [frame_of_addFrame hvframes, frame_of_addFrame huframes, hlength, if_neg hne, if_neg hne]
    exact h.own

/-- Both worlds get another object, which is the next of the others. -/
theorem addObject (h : b.Mirrors a f others all) (object : Object α)
    (hnext : Foresees all (others ++ [a.objects.length]) (a.addObject object).objects.length) :
    (b.addObject object).Mirrors (a.addObject object) f (others ++ [a.objects.length]) all where
  length_frames := h.length_frames
  opened := h.opened
  config_eq := h.config_eq
  current_eq := h.current_eq
  other := h.other
  own := h.own
  length_objects := by
    rw [World.addObject, List.length_append, List.length_append, h.length_objects]
    rfl
  known o ho := by
    rw [World.addObject, List.length_append]
    rcases List.mem_append.mp ho with ho | ho
    · exact Nat.lt_add_right _ (h.known o ho)
    · rw [List.mem_singleton.mp ho]
      exact Nat.lt_succ_self _
  foresees := hnext
  identity o ho := by
    have hnew : a.objects.length ∉ others := fun hmem => Nat.lt_irrefl _ (h.known _ hmem)
    rw [object_addObject, object_addObject, h.length_objects]
    rcases List.mem_append.mp ho with ho | ho
    · have hpos : others.idxOf o ≠ others.length := fun heq => List.idxOf_eq_length_iff.mp heq ho
      rw [List.idxOf_append_of_mem ho, if_neg hpos, if_neg (Nat.ne_of_lt (h.known o ho))]
      exact h.identity o ho
    · rw [List.mem_singleton.mp ho, idxOf_concat_self hnew, if_pos rfl, if_pos rfl]
      exact ⟨rfl, rfl⟩

/-- The frame makes an object in the one world, which is none of the others. -/
theorem addObject_left (h : b.Mirrors a f others all) (object : Object α)
    (hnext : Foresees all others (a.addObject object).objects.length) :
    b.Mirrors (a.addObject object) f others all :=
  { h with
    known := fun o ho => by
      rw [World.addObject, List.length_append]
      exact Nat.lt_add_right _ (h.known o ho)
    foresees := hnext
    identity := fun o ho => by
      rw [object_addObject, if_neg (Nat.ne_of_lt (h.known o ho))]
      exact h.identity o ho }

end Mirrors

end World

end VersionedObjects.Store
