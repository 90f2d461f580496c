import VersionedObjects.Store.Lifecycle

/-!
# The order of touched objects

A frame lists the objects that it has touched in an order which nothing in the program settles. The
order is part of the options of a frame, so what holds of all runs holds of every order, for each
frame and whoever closes it. Here is what all orders share: the same objects are listed, and each as
often as before; and every order is that of some listing.
-/

namespace VersionedObjects.Store

/-- To arrange objects is to permute them. By induction on the listing. -/
theorem arrange_perm (listing objects : List ObjectId) :
    (arrange listing objects).Perm objects := by
  induction listing generalizing objects with
  | nil => exact .refl objects
  | cons o rest ih =>
    rw [arrange]
    split
    · next ho =>
      have hfirst := List.perm_cons_erase (List.contains_iff_mem.mp ho)
      exact ((ih (objects.erase o)).cons o).trans hfirst.symm
    · exact ih objects

/-- Every order of objects is that of a listing, namely of itself. By induction on the order. -/
theorem arrange_of_perm {order objects : List ObjectId} (h : order.Perm objects) :
    arrange order objects = order := by
  induction order generalizing objects with
  | nil => rw [arrange, h.symm.eq_nil]
  | cons o rest ih =>
    have ho : o ∈ objects := h.subset List.mem_cons_self
    have hrest : rest.Perm (objects.erase o) :=
      (h.trans (List.perm_cons_erase ho)).cons_inv
    rw [arrange, if_pos (List.contains_iff_mem.mpr ho), ih hrest]

namespace Frame

variable {frame : Frame} {o : ObjectId}

/-- A frame lists what it has touched, in some order. -/
theorem listed_perm (frame : Frame) : frame.listed.Perm frame.touched :=
  arrange_perm frame.options.listing frame.touched

/-- A frame lists exactly what it has touched. -/
@[simp] theorem mem_listed : o ∈ frame.listed ↔ o ∈ frame.touched :=
  frame.listed_perm.mem_iff

end Frame

end VersionedObjects.Store
