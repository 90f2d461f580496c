import VersionedObjects.Grammar.SyntaxError
import VersionedObjects.Proofs.Declaration.Equality
import VersionedObjects.Proofs.Grammar.Literals

/-!
# The place of a syntax error

Every reader of the grammar keeps to its text: it leaves an end of the text, and a fault that it
finds is at a place in the text, where an expected character indeed does not stand. The line, the
column and the excerpt of a syntax error are thus those of a place in the source. Main statement:
`syntax_error_points`.
-/

namespace VersionedObjects.Grammar

open Declaration

/-! ## Faults in a text -/

/-- The constructs that a fault may be said to lie in. -/
def constructs : List String :=
  ["class declaration", "class name", "class body", "property name", "property type",
    "getter body", "setter body", "end of expression"]

/-- What a remark may say of a fault at the start of a text: the character does not stand there, or
the fault lies in the construct. -/
def Remark.Fits (rest : List Char) : Remark → Prop
  | expected c => rest.head? ≠ some c
  | construct name => name ∈ constructs
  | nothing => True

namespace Fault

variable {fault : Fault} {s t rest : List Char}

/-- The fault is at a place in the text, and all that is known of it fits there. -/
def LiesIn (fault : Fault) (s : List Char) : Prop :=
  ∃ rest remark outer, fault.trace = (rest, remark) :: outer ∧ rest <:+ s ∧
    ∀ place ∈ fault.trace, place.2.Fits rest

/-- A fault where the text starts lies in the text. -/
theorem liesIn_here (s : List Char) : (here s).LiesIn s :=
  ⟨s, .nothing, [], rfl, List.suffix_refl s, List.forall_mem_singleton.mpr trivial⟩

/-- A fault that expects a character lies where another one stands, or none. -/
theorem liesIn_missing {c : Char} (h : s.head? ≠ some c) : (missing c s).LiesIn s :=
  ⟨s, .expected c, [], rfl, List.suffix_refl s, List.forall_mem_singleton.mpr h⟩

/-- A fault in the end of a text lies in the whole text. -/
theorem LiesIn.mono (h : fault.LiesIn t) (hts : t <:+ s) : fault.LiesIn s := by
  obtain ⟨rest, remark, outer, htrace, hrest, hfits⟩ := h
  exact ⟨rest, remark, outer, htrace, hrest.trans hts, hfits⟩

/-- A fault stays where it is when a construct of the grammar is named around it. -/
theorem LiesIn.within {name : String} (hname : name ∈ constructs) (h : fault.LiesIn s) :
    (fault.within name s).LiesIn s := by
  obtain ⟨rest, remark, outer, htrace, hrest, hfits⟩ := h
  refine ⟨rest, remark, outer ++ [(s, .construct name)], ?_, hrest, ?_⟩
  · rw [Fault.within, htrace, List.cons_append]
  · exact List.forall_mem_append.mpr ⟨hfits, List.forall_mem_singleton.mpr hname⟩

end Fault

/-! ## Readers that keep to their text -/

/-- What is left is an end of the text, and a fault lies in the text. -/
def Outcome.StaysIn {α : Type} (s : List Char) : Outcome α → Prop
  | done _ rest => rest <:+ s
  | miss fault | halt fault => fault.LiesIn s

/-- An outcome within the end of a text is one within the whole text. -/
theorem Outcome.StaysIn.mono {α : Type} {s t : List Char} {outcome : Outcome α}
    (h : outcome.StaysIn t) (hts : t <:+ s) : outcome.StaysIn s := by
  cases outcome with
  | done value rest => exact List.IsSuffix.trans h hts
  | miss fault | halt fault => exact Fault.LiesIn.mono h hts

namespace Reader

variable {α β : Type}

/-- Whatever the text, the reader keeps to it. -/
def StaysInText (p : Reader α) : Prop :=
  ∀ s, (p s).StaysIn s

variable {p q : Reader α}

/-- A reader that gives a value and reads nothing leaves the text. -/
theorem staysInText_pure (a : α) : (pure a : Reader α).StaysInText :=
  List.suffix_refl

/-- A reader that always fails has its fault where it starts. -/
theorem staysInText_fail : (fail : Reader α).StaysInText :=
  Fault.liesIn_here

/-- A sequence stays in the text if its first reader and all that may come next do. -/
theorem StaysInText.bind {f : α → Reader β} (hp : p.StaysInText) (hf : ∀ a, (f a).StaysInText) :
    (p >>= f).StaysInText := by
  intro s
  have h := hp s
  rw [bind_apply]
  cases ha : p s with
  | done a mid => rw [ha] at h; exact (hf a mid).mono h
  | miss fault | halt fault => rw [ha] at h; exact h

/-- A value is changed after it has been read. -/
theorem StaysInText.map (hp : p.StaysInText) (f : α → β) :
    (p >>= fun a => pure (f a)).StaysInText :=
  hp.bind fun a => staysInText_pure (f a)

/-- A choice stays in the text if both of its readers do. -/
theorem StaysInText.orElse (hp : p.StaysInText) (hq : q.StaysInText) :
    (p.orElse q).StaysInText := by
  intro s
  have h := hp s
  unfold Reader.orElse
  cases ha : p s with
  | miss fault => exact hq s
  | done a mid => rw [ha] at h; exact h
  | halt fault => rw [ha] at h; exact h

/-- An optional reader stays in the text if its reader does. -/
theorem StaysInText.optional (hp : p.StaysInText) : p.optional.StaysInText := by
  intro s
  have h := hp s
  unfold Reader.optional
  cases ha : p s with
  | miss fault => exact List.suffix_refl s
  | done a mid => rw [ha] at h; exact h
  | halt fault => rw [ha] at h; exact h

/-- A committed reader stays in the text if its reader does. -/
theorem StaysInText.commit (hp : p.StaysInText) : p.commit.StaysInText := by
  intro s
  have h := hp s
  unfold Reader.commit
  cases ha : p s <;> rw [ha] at h <;> exact h

/-- A reader of a construct of the grammar stays in the text if the reader inside does. -/
theorem StaysInText.within {name : String} (hname : name ∈ constructs) (hp : p.StaysInText) :
    (p.within name).StaysInText := by
  intro s
  have h := hp s
  unfold Reader.within
  cases ha : p s with
  | done a mid => rw [ha] at h; exact h
  | miss fault | halt fault => rw [ha] at h; exact Fault.LiesIn.within hname h

/-- A tested reader stays in the text if its reader does. -/
theorem StaysInText.filter (keep : α → Bool) (hp : p.StaysInText) :
    (p.filter keep).StaysInText := by
  intro s
  have h := hp s
  unfold Reader.filter
  cases ha : p s with
  | done a mid =>
    rw [ha] at h
    dsimp only
    split
    · exact h
    · exact Fault.liesIn_here s
  | miss fault | halt fault => rw [ha] at h; exact h

/-- A converting reader stays in the text if its reader does. -/
theorem StaysInText.filterMap (f : α → Option β) (hp : p.StaysInText) :
    (p.filterMap f).StaysInText := by
  intro s
  have h := hp s
  unfold Reader.filterMap
  cases ha : p s with
  | done a mid =>
    rw [ha] at h
    dsimp only
    split
    · exact h
    · exact Fault.liesIn_here s
  | miss fault | halt fault => rw [ha] at h; exact h

/-- By induction along the values read. -/
theorem StaysInText.many (hp : p.StaysInText) : StaysInText (Reader.many p) := by
  intro s
  have h := hp s
  fun_induction Reader.many p s with
  | case1 s fault hmiss => exact List.suffix_refl s
  | case2 s fault hhalt => rw [hhalt] at h; exact h
  | case3 s a mid hdone hlt more last hmore ih =>
    rw [hdone] at h
    have hlast := ih (hp mid)
    rw [hmore] at hlast
    exact List.IsSuffix.trans hlast h
  | case4 s a mid hdone hlt fault hmore ih =>
    rw [hdone] at h
    have hfault := ih (hp mid)
    rw [hmore] at hfault
    exact Fault.LiesIn.mono hfault h
  | case5 s a mid hdone hlt fault hmore ih =>
    rw [hdone] at h
    have hfault := ih (hp mid)
    rw [hmore] at hfault
    exact Fault.LiesIn.mono hfault h
  | case6 s a mid hdone hlt => exact Fault.liesIn_here s

/-- A list of one item or more stays in the text if the reader of its items and that of its
separators do. -/
theorem StaysInText.sepBy₁ {separator : Reader Unit} (hseparator : separator.StaysInText)
    (hp : p.StaysInText) : (Reader.sepBy₁ separator p).StaysInText :=
  hp.bind fun _ => (StaysInText.many (hseparator.bind fun _ => hp)).map _

/-- A list of items stays in the text if the reader of its items and that of its separators do. -/
theorem StaysInText.sepBy {separator : Reader Unit} (hseparator : separator.StaysInText)
    (hp : p.StaysInText) : (Reader.sepBy separator p).StaysInText :=
  (hseparator.sepBy₁ hp).optional.map _

end Reader

open Reader

/-! ## Words and literals -/

/-- By the recursion of blanks and comments. -/
theorem skipBlanks_suffix (s : List Char) : skipBlanks s <:+ s := by
  refine skipBlanks.induct (fun s => skipBlanks.skipComment s <:+ s) (fun s => skipBlanks s <:+ s)
    ?_ ?_ ?_ ?_ ?_ ?_ ?_ s
  · exact fun rest ih => by
      rw [skipBlanks.skipComment]
      exact ih.trans (List.suffix_cons ..)
  · exact fun c rest hc ih => by
      rw [skipBlanks.skipComment.eq_2 _ _ hc]
      exact ih.trans (List.suffix_cons ..)
  · exact List.suffix_refl []
  · exact fun rest ih => by
      rw [skipBlanks]
      exact ih.trans ((List.suffix_cons ..).trans (List.suffix_cons ..))
  · exact fun c rest _ hspace ih => by
      rw [skipBlanks_cons_of_isSpace hspace]
      exact ih.trans (List.suffix_cons ..)
  · exact fun c rest hcomment hspace => by
      rw [skipBlanks.eq_2 _ _ hcomment, if_neg hspace]
  · exact List.suffix_refl []

/-- To skip blanks first is to start further on in the text. -/
theorem staysInText_spaced {α : Type} {p : Reader α} (hp : p.StaysInText) :
    (spaced p).StaysInText :=
  fun s => (hp (skipBlanks s)).mono (skipBlanks_suffix s)

/-- The reader of a character stays in the text. -/
theorem staysInText_char (c : Char) : (char c).StaysInText := by
  rintro (_ | ⟨d, rest⟩)
  · exact Fault.liesIn_missing nofun
  · rw [char]
    split
    · exact List.suffix_cons d rest
    · next hne => exact Fault.liesIn_missing fun h => hne (Option.some.inj h)

/-- The reader of a symbol stays in the text. -/
theorem staysInText_symbol (c : Char) : (symbol c).StaysInText :=
  staysInText_spaced (staysInText_char c)

/-- The reader of a keyword stays in the text. -/
theorem staysInText_keyword (word : String) : (keyword word).StaysInText := by
  intro s
  rw [keyword]
  cases hdrop : dropWord word.toList s with
  | none => exact Fault.liesIn_here s
  | some rest =>
    have hrest : rest <:+ s := ⟨word.toList, (dropWord_eq_some_iff.mp hdrop).symm⟩
    cases rest with
    | nil => exact hrest
    | cons c rest =>
      dsimp only
      split
      · exact (Fault.liesIn_here _).mono hrest
      · exact hrest

/-- The reader of identifiers stays in the text. -/
theorem staysInText_identifier : identifier.StaysInText := by
  rintro (_ | ⟨c, rest⟩)
  · exact Fault.liesIn_here []
  · rw [identifier]
    split
    · exact (List.dropWhile_suffix _).trans (List.suffix_cons c rest)
    · exact Fault.liesIn_here (c :: rest)

/-- The reader of digits stays in the text. -/
theorem staysInText_digits : digits.StaysInText := by
  intro s
  rw [digits]
  split
  · exact Fault.liesIn_here s
  · exact List.dropWhile_suffix _

/-- The reader of a sign stays in the text. -/
theorem staysInText_sign : sign.StaysInText :=
  (staysInText_char '-').optional.map _

/-- The reader of floating-point literals stays in the text. -/
theorem staysInText_float : float.StaysInText :=
  staysInText_sign.bind fun _ => staysInText_digits.bind fun _ =>
    (staysInText_char '.').bind fun _ => staysInText_digits.map _

/-- The reader of integer literals stays in the text. -/
theorem staysInText_int : int.StaysInText :=
  StaysInText.filterMap _ (staysInText_sign.bind fun _ => staysInText_digits.map _)

/-- What follows the closing quote of a string is the end of the text. -/
theorem stringContent_suffix {s content rest : List Char}
    (h : stringContent s = some (content, rest)) : rest <:+ s := by
  fun_induction stringContent s generalizing content with
  | case1 => cases h; exact List.suffix_refl []
  | case2 => cases h; exact List.suffix_refl _
  | case3 c s ih =>
    simp only [Option.bind_eq_bind, Option.bind_eq_some_iff] at h
    obtain ⟨d, -, ⟨more, last⟩, hmore, heq⟩ := h
    cases heq
    exact (ih hmore).trans ((List.suffix_cons ..).trans (List.suffix_cons ..))
  | case4 => cases h
  | case5 c s _ _ _ ih =>
    simp only [Option.bind_eq_bind, Option.bind_eq_some_iff] at h
    obtain ⟨⟨more, last⟩, hmore, heq⟩ := h
    cases heq
    exact (ih hmore).trans (List.suffix_cons ..)

/-- The reader of string literals stays in the text. -/
theorem staysInText_string : string.StaysInText := by
  refine (staysInText_char '"').bind fun _ => StaysInText.bind (fun s => ?_) fun content =>
    (staysInText_char '"').commit.map _
  split
  · next content rest hcontent => exact stringContent_suffix hcontent
  · exact List.suffix_refl s

/-- The reader of literals stays in the text. -/
theorem staysInText_literal : literal.StaysInText := by
  refine (staysInText_string.map _).orElse ?_
  refine staysInText_float.orElse ?_
  refine staysInText_int.orElse ?_
  refine ((staysInText_keyword "true").map _).orElse ?_
  refine ((staysInText_keyword "false").map _).orElse ?_
  exact (staysInText_keyword "null").map _

/-! ## The grammar -/

/-- The reader of types stays in the text. By induction on the depth. -/
theorem staysInText_type (depth : Nat) : (type depth).StaysInText := by
  induction depth with
  | zero => exact staysInText_fail
  | succ depth ih =>
    refine (staysInText_spaced staysInText_identifier).bind fun name => ?_
    refine StaysInText.bind (StaysInText.optional ?_) fun args =>
      (staysInText_char '?').optional.map _
    refine (staysInText_symbol '<').bind fun _ => ?_
    exact ((staysInText_symbol ',').sepBy₁ ih).bind fun args =>
      (staysInText_symbol '>').commit.map _

/-- The reader of expressions stays in the text. By induction on the depth. -/
theorem staysInText_expr (depth : Nat) : (expr depth).StaysInText := by
  induction depth with
  | zero => exact staysInText_fail
  | succ depth ih =>
    have hlist : StaysInText (do
        char '['
        let items ← sepBy (symbol ',') (expr depth)
        commit (symbol ']')
        return Expr.list items) :=
      (staysInText_char '[').bind fun _ => ((staysInText_symbol ',').sepBy ih).bind fun items =>
        (staysInText_symbol ']').commit.map _
    have hstep : pathStep.StaysInText :=
      (staysInText_char '.').bind fun _ => staysInText_identifier
    refine StaysInText.bind (staysInText_spaced ?_) fun head => hstep.many.map _
    refine (staysInText_literal.map _).orElse ?_
    refine hlist.orElse ?_
    refine ((staysInText_keyword "this").map _).orElse ?_
    refine ((staysInText_keyword "field").map _).orElse ?_
    exact staysInText_identifier.map _

/-- The reader of statements stays in the text. -/
theorem staysInText_stmt (depth : Nat) : (stmt depth).StaysInText := by
  have hexpr := staysInText_expr depth
  refine StaysInText.bind (staysInText_spaced ?_) fun stmt =>
    (staysInText_symbol ';').optional.map _
  refine StaysInText.orElse ((staysInText_keyword "return").bind fun _ => hexpr.commit.map _) ?_
  refine StaysInText.orElse ?_ (hexpr.map _)
  exact (hexpr.filter isAssignable).bind fun target => (staysInText_symbol '=').bind fun _ =>
    hexpr.commit.map _

/-- The reader of blocks stays in the text. -/
theorem staysInText_block (depth : Nat) : (block depth).StaysInText :=
  (staysInText_symbol '\x7b').bind fun _ => (staysInText_stmt depth).many.bind fun _ =>
    (staysInText_symbol '\x7d').commit.map _

/-- The reader of getters stays in the text. -/
theorem staysInText_getter (depth : Nat) : (getter depth).StaysInText := by
  refine (staysInText_spaced (staysInText_keyword "get")).bind fun _ => ?_
  refine StaysInText.bind ?_ fun _ => StaysInText.map ?_ _
  · exact ((staysInText_symbol '(').bind fun _ => staysInText_symbol ')').commit
  · refine StaysInText.within (by decide) (StaysInText.commit ?_)
    exact ((staysInText_symbol '=').bind fun _ => (staysInText_expr depth).map _).orElse
      (staysInText_block depth)

/-- The reader of setters stays in the text. -/
theorem staysInText_setter (depth : Nat) : (setter depth).StaysInText := by
  refine (staysInText_spaced (staysInText_keyword "set")).bind fun _ => ?_
  refine StaysInText.bind (StaysInText.commit ?_) fun param => StaysInText.map ?_ _
  · exact (staysInText_symbol '(').bind fun _ =>
      (staysInText_spaced staysInText_identifier).bind fun param => (staysInText_symbol ')').map _
  · exact (staysInText_block depth).commit.within (by decide)

/-- The reader of properties stays in the text. -/
theorem staysInText_property (depth : Nat) : (property depth).StaysInText := by
  refine StaysInText.bind (staysInText_spaced ?_) fun mutable => ?_
  · exact ((staysInText_keyword "var").map _).orElse ((staysInText_keyword "val").map _)
  refine ((staysInText_spaced staysInText_identifier).commit.within (by decide)).bind fun name => ?_
  refine StaysInText.bind (StaysInText.within (by decide) (StaysInText.commit ?_)) fun type => ?_
  · exact (staysInText_symbol ':').bind fun _ => staysInText_type depth
  refine StaysInText.bind (StaysInText.optional ?_) fun initializer => ?_
  · exact (staysInText_symbol '=').bind fun _ => (staysInText_expr depth).commit
  exact (staysInText_getter depth).optional.bind fun getter =>
    (staysInText_setter depth).optional.map _

/-- The reader of classes stays in the text. -/
theorem staysInText_classDecl (depth : Nat) : (classDecl depth).StaysInText := by
  refine StaysInText.bind (StaysInText.many ?_) fun annotations => ?_
  · exact (staysInText_symbol '@').bind fun _ => staysInText_identifier
  refine (staysInText_spaced (staysInText_keyword "class")).bind fun _ => ?_
  refine ((staysInText_spaced staysInText_identifier).commit.within (by decide)).bind fun name => ?_
  refine StaysInText.bind (StaysInText.optional ?_) fun supertypes => StaysInText.map ?_ _
  · exact (staysInText_symbol ':').bind fun _ =>
      ((staysInText_symbol ',').sepBy₁ (staysInText_type depth)).commit
  · refine StaysInText.within (by decide) (StaysInText.commit ?_)
    exact (staysInText_symbol '\x7b').bind fun _ => (staysInText_property depth).many.bind
      fun properties => (staysInText_symbol '\x7d').map _

/-- The reader of the end of the text stays in the text. -/
theorem staysInText_endOfText : endOfText.StaysInText := by
  rintro (_ | ⟨c, rest⟩)
  · exact List.suffix_refl []
  · exact Fault.liesIn_here (c :: rest)

/-- The reader of modules stays in the text. -/
theorem staysInText_module (depth : Nat) : (module depth).StaysInText :=
  (staysInText_classDecl depth).many.bind fun _ =>
    ((staysInText_spaced staysInText_endOfText).within (by decide)).map _

/-- The reader of a lone expression stays in the text. -/
theorem staysInText_wholeExpr (depth : Nat) : (wholeExpr depth).StaysInText :=
  (staysInText_expr depth).bind fun _ =>
    ((staysInText_spaced staysInText_endOfText).within (by decide)).map _

/-! ## Syntax errors -/

/-- How a message starts that goes on with an excerpt from the text at the place of the fault. -/
inductive LeadsTo (rest : List Char) : String → Prop
  | unexpected : LeadsTo rest "unexpected "
  | invalid {construct : String} (h : construct ∈ constructs) :
      LeadsTo rest ("invalid " ++ construct ++ " at ")
  | expected {c : Char} (h : rest.head? ≠ some c) :
      LeadsTo rest ("expected '" ++ String.singleton c ++ "', found ")
  | expectedIn {c : Char} {construct : String} (h : rest.head? ≠ some c)
      (hconstruct : construct ∈ constructs) :
      LeadsTo rest ("expected '" ++ String.singleton c ++ "' in " ++ construct ++ ", found ")

/-- The error is one at the place between the two parts of the source. -/
structure SyntaxError.PointsAt (e : SyntaxError) (before rest : List Char) : Prop where
  line : e.line = 1 + before.count '\n'
  /-- The column counts the characters after the last newline before the place. -/
  column : ∃ above tail, before = above ++ tail ∧ (∀ c ∈ above.getLast?, c = '\n') ∧
    '\n' ∉ tail ∧ e.column = 1 + tail.length
  /-- The message ends in the quoted start of the rest. -/
  message : ∃ lead, LeadsTo rest lead ∧
    e.message = lead ++ Text.quote (String.ofList (rest.take 12))

/-- What comes after the last newline is the longest end without one. -/
theorem exists_columnAfter (before : List Char) : ∃ above tail, before = above ++ tail ∧
    (∀ c ∈ above.getLast?, c = '\n') ∧ '\n' ∉ tail ∧ columnAfter before = 1 + tail.length := by
  refine ⟨(before.reverse.dropWhile (· ≠ '\n')).reverse,
    (before.reverse.takeWhile (· ≠ '\n')).reverse, ?_, ?_, ?_, ?_⟩
  · rw [← List.reverse_append, List.takeWhile_append_dropWhile, List.reverse_reverse]
  · intro c hc
    rw [List.getLast?_reverse] at hc
    simpa using avoids_dropWhile (· ≠ '\n') before.reverse c hc
  · intro hmem
    simpa using List.all_eq_true.mp List.all_takeWhile '\n' (List.mem_reverse.mp hmem)
  · rw [List.length_reverse, columnAfter, Nat.add_comm]

namespace Fault

variable {fault : Fault} {s rest : List Char}

/-- The character that a fault expects is not the one that stands there. -/
theorem head?_ne_of_expected? (hfits : ∀ place ∈ fault.trace, place.2.Fits rest) {c : Char}
    (h : fault.expected? = some c) : rest.head? ≠ some c := by
  obtain ⟨⟨place, remark⟩, hmem, hremark⟩ := List.exists_of_findSome?_eq_some h
  dsimp only at hremark
  split at hremark <;> cases hremark
  exact hfits _ hmem

/-- The construct that a fault names is one of the grammar. -/
theorem mem_constructs_of_construct? (hfits : ∀ place ∈ fault.trace, place.2.Fits rest)
    {name : String} (h : fault.construct? = some name) : name ∈ constructs := by
  obtain ⟨⟨place, remark⟩, hmem, hremark⟩ := List.exists_of_findSome?_eq_some h
  dsimp only at hremark
  split at hremark <;> cases hremark
  exact hfits _ hmem

/-- The message ends in the excerpt, whatever is known of the fault. -/
theorem exists_leadsTo (hfits : ∀ place ∈ fault.trace, place.2.Fits rest) : ∃ lead,
    LeadsTo rest lead ∧
      fault.message rest = lead ++ Text.quote (String.ofList (rest.take 12)) := by
  unfold Fault.message
  cases hc : fault.expected? with
  | none =>
    cases hname : fault.construct? with
    | none => exact ⟨_, .unexpected, rfl⟩
    | some name => exact ⟨_, .invalid (mem_constructs_of_construct? hfits hname), rfl⟩
  | some c =>
    have hmissing := head?_ne_of_expected? hfits hc
    cases hname : fault.construct? with
    | none => exact ⟨_, .expected hmissing, rfl⟩
    | some name =>
      exact ⟨_, .expectedIn hmissing (mem_constructs_of_construct? hfits hname), rfl⟩

/-- The error of a fault in a text is at the place of the fault. -/
theorem LiesIn.pointsAt (h : fault.LiesIn s) :
    ∃ before rest, s = before ++ rest ∧ (SyntaxError.ofFault s fault).PointsAt before rest := by
  obtain ⟨rest, remark, outer, htrace, ⟨before, rfl⟩, hfits⟩ := h
  refine ⟨before, rest, rfl, ?_⟩
  have hbefore : (before ++ rest).take ((before ++ rest).length - rest.length) = before := by
    rw [List.length_append, Nat.add_sub_cancel, List.take_left]
  have herror : SyntaxError.ofFault (before ++ rest) fault =
      { line := lineAfter before, column := columnAfter before,
        message := fault.message rest } := by
    rw [SyntaxError.ofFault, htrace]
    dsimp only
    rw [hbefore]
  rw [herror]
  exact { line := Nat.add_comm .., column := exists_columnAfter before,
          message := exists_leadsTo hfits }

end Fault

/-- Whatever stays in the text and reads all of it reports its errors at a place of the text. -/
theorem exists_pointsAt_of_readWhole {α : Type} {p : Nat → Reader α}
    (hp : ∀ depth, (p depth).StaysInText) {source : String} {e : SyntaxError}
    (h : readWhole p source = .error e) :
    ∃ before rest, source.toList = before ++ rest ∧ e.PointsAt before rest := by
  have hstays := hp (source.toList.length + 1) source.toList
  unfold readWhole at h
  dsimp only at h
  split at h
  · cases h
  · next fault hmiss =>
    cases h
    rw [hmiss] at hstays
    exact Fault.LiesIn.pointsAt hstays
  · next fault hhalt =>
    cases h
    rw [hhalt] at hstays
    exact Fault.LiesIn.pointsAt hstays

/-- A text that is read neither as a module nor as an expression gives the place of its fault: the
line and the column are those of the place, counted from one, and the message quotes the text
found there. -/
theorem syntax_error_points {source : String} {e : SyntaxError}
    (h : parseModule source = .error e ∨ parseExpr source = .error e) :
    (∃ before rest, source.toList = before ++ rest ∧ e.PointsAt before rest) ∧
      e.line ≠ 0 ∧ e.column ≠ 0 := by
  have hplace : ∃ before rest, source.toList = before ++ rest ∧ e.PointsAt before rest := by
    obtain h | h := h
    · exact exists_pointsAt_of_readWhole staysInText_module h
    · exact exists_pointsAt_of_readWhole staysInText_wholeExpr h
  obtain ⟨before, rest, hsource, hpoints⟩ := hplace
  obtain ⟨above, tail, -, -, -, hcolumn⟩ := hpoints.column
  have hline := hpoints.line
  exact ⟨⟨before, rest, hsource, hpoints⟩, by omega, by omega⟩

/-- A property without a colon on the second line is pointed at on that line, with the rest of the
text as the excerpt. -/
theorem syntax_error_points_second_line :
    ∃ e, parseModule "class A \x7b\n  var n Int\n\x7d" = .error e ∧
      e.text = "Syntax error at 2:9: expected ':' in property type, found \"Int\\n\x7d\"" ∧
      ∃ before rest, "class A \x7b\n  var n Int\n\x7d".toList = before ++ rest ∧
        e.PointsAt before rest := by
  have h : parseModule "class A \x7b\n  var n Int\n\x7d" = .error
      { line := 2, column := 9,
        message := "expected ':' in property type, found \"Int\\n\x7d\"" } := by
    decide +kernel
  exact ⟨_, h, by decide +kernel, (syntax_error_points (.inl h)).1⟩

/-- What follows a whole expression is out of place, here after a comment. -/
example : parseExpr "a.b // first\n c" =
    .error { line := 2, column := 2, message := "invalid end of expression at \"c\"" } := by
  decide +kernel

end VersionedObjects.Grammar
