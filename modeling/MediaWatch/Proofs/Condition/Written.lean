import MediaWatch.Proofs.Condition.NormalForm
import MediaWatch.Proofs.Query.Grammar

/-! # How conditions are written

The written form of a compiled condition can be read off the terms of its query. Groups with a term that never holds
are left out, and so are terms that always hold; what is left is written with `and` between the terms of a group and a
comma between groups.
-/

namespace MediaWatch

def Term.text : Term → Text
  | constant holds => if holds then allText else notAllText
  | watch descriptor inverted => if inverted then "not ".toList ++ descriptor else descriptor

/-- The written form of terms that must hold together. -/
def Term.written (ts : List Term) : Text := Text.joined " and ".toList (ts.map text)

/-- What is written for a group of texts of which one decides the group. -/
def Junction.decisive : Junction → Text
  | .all => notAllText
  | .any => allText

/-- What is written for a group of texts of which none says anything. -/
def Junction.neutral : Junction → Text
  | .all => allText
  | .any => notAllText

def Junction.write (j : Junction) (ts : List Text) : Text :=
  if ts.any fun t => Text.sameAsciiLetters t j.decisive then j.decisive
  else
    match ts.filter fun t => !Text.sameAsciiLetters t j.neutral with
    | [] => j.neutral
    | rest => Text.joined j.separator rest

/-- What is left of a group that may hold: the terms that do not always. -/
def Term.remaining (ts : List Term) : List Term := ts.filter (· != constant true)

/-- What is left of the groups of a query that may hold. -/
def Registry.kept (r : Registry) (query : Text) : List (List Term) :=
  ((r.groups query).filter fun ts => !ts.contains (.constant false)).map Term.remaining

variable {f : Media.Features} {r : Registry} {t : Term} {ts : List Term}

namespace Condition

/-- A folded group is written by the written forms of its children alone. -/
theorem text_combine (id : NodeId) (j : Junction) (cs : List Condition) :
    (combine id j cs).text = j.write (cs.map text) := by
  have decides : absorbs j = fun c => Text.sameAsciiLetters c.text j.decisive := by
    funext c
    cases j with
    | all => exact Bool.eq_iff_iff.mpr (isNever_iff c)
    | any => exact Bool.eq_iff_iff.mpr (isAlways_iff c)
  have vanishes : ∀ c : Condition, vanishes j c = Text.sameAsciiLetters c.text j.neutral := by
    intro c
    cases j with
    | all => exact Bool.eq_iff_iff.mpr (isAlways_iff c)
    | any => exact Bool.eq_iff_iff.mpr (isNever_iff c)
  simp only [combine, Junction.write, List.any_map, List.filter_map, Function.comp_def, decides, vanishes]
  split
  · cases j <;> rfl
  · generalize cs.filter (fun c => !Text.sameAsciiLetters c.text j.neutral) = rest
    rcases rest with _ | ⟨c, _ | ⟨d, rest⟩⟩
    · cases j <;> rfl
    · rfl
    · exact congrArg (Text.joined j.separator) (texts_eq (c :: d :: rest))

end Condition

namespace Term

/-- A term that is written like a constant is one. -/
structure IsSettled (t : Term) : Prop where
  always : Text.sameAsciiLetters t.text allText → t = constant true
  never : Text.sameAsciiLetters t.text notAllText → t = constant false

private theorem isSettled_constant (b : Bool) : (constant b).IsSettled := by
  cases b with
  | true => exact ⟨fun _ => rfl, fun same => absurd same (by decide)⟩
  | false => exact ⟨fun same => absurd same (by decide), fun _ => rfl⟩

private theorem isSettled_ofDescriptor (descriptor : Text) (inverted : Bool) :
    (ofDescriptor descriptor inverted).IsSettled := by
  rw [ofDescriptor]
  split
  · exact isSettled_constant _
  split
  · exact isSettled_constant _
  next notAlways =>
  split
  · exact isSettled_constant _
  next notNever =>
  cases inverted with
  | false => exact ⟨fun same => absurd same notAlways, fun same => absurd same notNever⟩
  | true =>
    refine ⟨fun same => ?_, fun same => absurd (Condition.sameAsciiLetters_not same) notAlways⟩
    have letter : 'n' ∈ (watch descriptor true).text := by simp [text]
    exact absurd (Text.toLower_mem_of_sameAsciiLetters same letter) (by decide)

private theorem isSettled_ofText (r : Registry) (t : Text) : (ofText r t).IsSettled := isSettled_ofDescriptor _ _

private theorem IsSettled.same_always (settled : t.IsSettled) :
    Text.sameAsciiLetters t.text allText = (t == constant true) := by
  rw [Bool.eq_iff_iff, beq_iff_eq]
  refine ⟨settled.always, ?_⟩
  rintro rfl
  decide

private theorem IsSettled.same_never (settled : t.IsSettled) :
    Text.sameAsciiLetters t.text notAllText = (t == constant false) := by
  rw [Bool.eq_iff_iff, beq_iff_eq]
  refine ⟨settled.never, ?_⟩
  rintro rfl
  decide

end Term

private theorem settled_groups (r : Registry) (query : Text) : ∀ ts ∈ r.groups query, ∀ t ∈ ts, t.IsSettled := by
  intro ts group t term
  obtain ⟨g, -, rfl⟩ := List.mem_map.mp group
  obtain ⟨t, -, rfl⟩ := List.mem_map.mp term
  exact Term.isSettled_ofText r t

/-! ## Compiled queries -/

namespace Condition

private theorem text_ofTerm (settled : t.IsSettled) (next : NodeId) : (ofTerm next t).1.simplify.text = t.text := by
  cases t with
  | constant b => cases b <;> rfl
  | watch descriptor inverted =>
    have notAlways : ¬ (leaf (next + 1) ⟨next, descriptor⟩ inverted).isAlways :=
      fun always => absurd (settled.always always) nofun
    have notNever : ¬ (leaf (next + 1) ⟨next, descriptor⟩ inverted).isNever :=
      fun never => absurd (settled.never never) nofun
    rw [ofTerm, simplify, if_neg notAlways, if_neg notNever]
    rfl

private theorem text_ofTerms (settled : ∀ t ∈ ts, t.IsSettled) (next : NodeId) :
    ((ofTerms next ts).1.map simplify).map text = ts.map Term.text := by
  induction ts generalizing next with
  | nil => rfl
  | cons t ts ih =>
    obtain ⟨first, others⟩ := List.forall_mem_cons.mp settled
    exact congrArg₂ List.cons (text_ofTerm first next) (ih others _)

private theorem text_ofGroups {groups : List (List Term)}
    (settled : ∀ ts ∈ groups, ∀ t ∈ ts, t.IsSettled) (next : NodeId) :
    ((ofGroups next groups).1.map simplify).map text = groups.map fun ts => Junction.all.write (ts.map Term.text) := by
  induction groups generalizing next with
  | nil => rfl
  | cons ts groups ih =>
    obtain ⟨first, others⟩ := List.forall_mem_cons.mp settled
    refine congrArg₂ List.cons ?_ (ih others _)
    rw [simplify, text_combine, simplifyAll_eq, text_ofTerms first]

/-- The written form of a query that is not blank, by the written forms of its terms. -/
theorem text_compiled (r : Registry) (next : NodeId) {query : Text} (some : query.trim ≠ []) :
    (compile r next query).1.text =
      Junction.any.write ((r.groups query.trim).map fun ts => Junction.all.write (ts.map Term.text)) := by
  rw [compile]
  simp only [List.isEmpty_eq_false_iff.mpr some, Bool.false_eq_true, ↓reduceIte]
  rw [simplify, text_combine, simplifyAll_eq, text_ofGroups (settled_groups r query.trim)]

end Condition

/-! ## What is left of a query -/

namespace Term

@[simp] theorem remaining_always (ts : List Term) : remaining (constant true :: ts) = remaining ts :=
  List.filter_cons_of_neg (by simp)

@[simp] theorem remaining_watch (descriptor : Text) (inverted : Bool) (ts : List Term) :
    remaining (watch descriptor inverted :: ts) = watch descriptor inverted :: remaining ts :=
  List.filter_cons_of_pos (by simp)

/-- What is left of a settled group is neither of the constants. -/
theorem of_mem_remaining (possible : constant false ∉ ts) (mem : t ∈ remaining ts) :
    t ∈ ts ∧ t ≠ constant true ∧ t ≠ constant false := by
  obtain ⟨mem, other⟩ := List.mem_filter.mp mem
  refine ⟨mem, by simpa using other, ?_⟩
  rintro rfl
  exact possible mem

/-- A group with a term that never holds is written like the constant. -/
theorem write_never (settled : ∀ t ∈ ts, t.IsSettled) (never : constant false ∈ ts) :
    Junction.all.write (ts.map text) = notAllText := by
  refine if_pos (List.any_eq_true.mpr ⟨_, List.mem_map_of_mem never, ?_⟩)
  exact (settled _ never).same_never.trans (by simp)

/-- A group without one is written by what is left of it. -/
theorem write_remaining (settled : ∀ t ∈ ts, t.IsSettled) (possible : constant false ∉ ts) :
    Junction.all.write (ts.map text) =
      if remaining ts = [] then allText else written (remaining ts) := by
  have undecided : ¬ (ts.map text).any fun t => Text.sameAsciiLetters t Junction.all.decisive := by
    rw [List.any_map, List.any_eq_true]
    rintro ⟨t, mem, same⟩
    exact possible ((settled t mem).never same ▸ mem)
  have left :
      (ts.map text).filter (fun t => !Text.sameAsciiLetters t Junction.all.neutral) = (remaining ts).map text := by
    rw [List.filter_map, remaining]
    refine congrArg (List.map text) (List.filter_congr fun t mem => ?_)
    exact congrArg (!·) (settled t mem).same_always
  rw [Junction.write, if_neg undecided, left]
  cases remaining ts <;> rfl

/-- What is left of a group is not written like a constant. -/
theorem not_same_remaining (settled : ∀ t ∈ ts, t.IsSettled) (possible : constant false ∉ ts) (some : remaining ts ≠ [])
    {u : Text} (among : u ∈ [allText, notAllText]) :
    ¬ Text.sameAsciiLetters (written (remaining ts)) u := by
  have others : ∀ t ∈ remaining ts, ¬ Text.sameAsciiLetters t.text u := by
    intro t mem same
    obtain ⟨mem, notAlways, notNever⟩ := of_mem_remaining possible mem
    rcases List.mem_pair.mp among with rfl | rfl
    · exact notAlways ((settled t mem).always same)
    · exact notNever ((settled t mem).never same)
  have letter : 'd' ∉ Text.lowerAscii u := by
    rcases List.mem_pair.mp among with rfl | rfl <;> decide
  intro same
  match left : remaining ts, some with
  | [t], _ =>
    rw [left] at same others
    exact others t List.mem_cons_self same
  | t :: v :: rest, _ =>
    rw [left] at same
    have mem : 'd' ∈ written (t :: v :: rest) := by simp [written, Text.joined]
    exact letter (Text.toLower_mem_of_sameAsciiLetters same mem)

/-- A group is written like what always holds if nothing is left of it, and nothing in it never holds. -/
theorem same_write_always (settled : ∀ t ∈ ts, t.IsSettled) :
    Text.sameAsciiLetters (Junction.all.write (ts.map text)) allText ↔ constant false ∉ ts ∧ remaining ts = [] := by
  by_cases never : constant false ∈ ts
  · rw [write_never settled never]
    exact iff_of_false (by decide) fun both => both.1 never
  · rw [write_remaining settled never]
    split
    · next none => exact iff_of_true (by decide) ⟨never, none⟩
    · next some =>
      exact iff_of_false (not_same_remaining settled never some List.mem_cons_self) fun both => some both.2

/-- A group is written like what never holds if something in it never does. -/
theorem same_write_never (settled : ∀ t ∈ ts, t.IsSettled) :
    Text.sameAsciiLetters (Junction.all.write (ts.map text)) notAllText ↔ constant false ∈ ts := by
  by_cases never : constant false ∈ ts
  · rw [write_never settled never]
    exact iff_of_true (by decide) never
  · rw [write_remaining settled never]
    refine iff_of_false ?_ never
    split
    · decide
    · next some => exact not_same_remaining settled never some (List.mem_cons_of_mem _ List.mem_cons_self)

end Term

/-- A query that is not blank is written by what is left of its groups. -/
theorem Condition.text_kept (r : Registry) (next : NodeId) {query : Text} (some : query.trim ≠ []) :
    (compile r next query).1.text =
      if [] ∈ r.kept query.trim then allText
      else if r.kept query.trim = [] then notAllText
      else Text.joined ", ".toList ((r.kept query.trim).map Term.written) := by
  have settled := settled_groups r query.trim
  have always : (((r.groups query.trim).map fun ts => Junction.all.write (ts.map Term.text)).any fun t =>
      Text.sameAsciiLetters t Junction.any.decisive) ↔ [] ∈ r.kept query.trim := by
    simp only [List.any_map, List.any_eq_true, Registry.kept, List.mem_map, List.mem_filter, Bool.not_eq_true',
      ← Bool.not_eq_true, List.contains_iff_mem, and_assoc]
    exact exists_congr fun ts => and_congr_right fun group => Term.same_write_always (settled ts group)
  have possible : ∀ ts ∈ r.groups query.trim,
      (!Text.sameAsciiLetters (Junction.all.write (ts.map Term.text)) Junction.any.neutral) =
        !ts.contains (.constant false) := by
    intro ts group
    rw [Bool.not_inj_iff, Bool.eq_iff_iff, List.contains_iff_mem]
    exact Term.same_write_never (settled ts group)
  rw [text_compiled r next some, Junction.write, List.filter_map, Function.comp_def, List.filter_congr possible]
  by_cases empty : [] ∈ r.kept query.trim
  · rw [if_pos (always.mpr empty), if_pos empty]
    rfl
  rw [if_neg (always.not.mpr empty), if_neg empty]
  have written : ((r.groups query.trim).filter fun ts => !ts.contains (.constant false)).map
      (fun ts => Junction.all.write (ts.map Term.text)) = (r.kept query.trim).map Term.written := by
    rw [Registry.kept, List.map_map]
    refine List.map_congr_left fun ts mem => ?_
    obtain ⟨group, notNever⟩ := List.mem_filter.mp mem
    rw [Term.write_remaining (settled ts group) (by simpa using notNever), if_neg]
    · rfl
    · exact fun none => empty (none ▸ List.mem_map_of_mem mem)
  rw [written]
  cases r.kept query.trim <;> rfl

/-- What is left of a query holds whenever the query does. -/
theorem Registry.holds_kept (r : Registry) (f : Media.Features) (query : Text) :
    ((r.kept query).any fun ts => ts.all (Term.holds f)) = (r.groups query).any fun ts => ts.all (Term.holds f) := by
  have group : ∀ ts : List Term,
      (!ts.contains (.constant false) && (Term.remaining ts).all (Term.holds f)) = ts.all (Term.holds f) := by
    intro ts
    rw [Bool.eq_iff_iff, Bool.and_eq_true, Bool.not_eq_true', ← Bool.not_eq_true, List.contains_iff_mem,
      List.all_eq_true, List.all_eq_true]
    constructor
    · rintro ⟨possible, left⟩ t mem
      by_cases always : t = .constant true
      · subst always
        rfl
      · exact left t (List.mem_filter.mpr ⟨mem, by simpa using always⟩)
    · intro whole
      exact ⟨fun never => absurd (whole _ never) nofun, fun t mem => whole t (List.mem_filter.mp mem).1⟩
  rw [Registry.kept, List.any_map, List.any_filter]
  exact congrArg (List.any _) (funext group)

end MediaWatch
