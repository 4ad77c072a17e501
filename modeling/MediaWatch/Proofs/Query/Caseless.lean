import MediaWatch.Proofs.Media.Reading
import MediaWatch.Proofs.Query.Grammar

/-! # Case makes no difference

Two queries that agree up to the case of ASCII letters are compiled to conditions that differ in identities and in the
case of descriptors alone, and that hold in the same snapshots. Each stage commutes with putting everything in small
letters: cutting, negations, shortcuts, constants, folding and reading.
-/

namespace MediaWatch

/-! ## Texts -/

namespace Text

/-- A comma is found in any case. -/
theorem comma_lowerAscii (t : Text) : comma (lowerAscii t) = comma t := by
  rw [comma, comma, blankRun_lowerAscii, drop_lowerAscii]
  cases t.drop (blankRun t) with
  | nil => rfl
  | cons c later =>
    by_cases separates : c = ','
    · subst separates
      show blankRun t + 1 + blankRun (lowerAscii later) = blankRun t + 1 + blankRun later
      rw [blankRun_lowerAscii]
    · have other : c.toLower ≠ ',' := fun same => separates ((toLower_eq_iff (by decide)).mp same)
      simp [lowerAscii, separates, other]

private theorem commaOrWord_lowerAscii (t : Text) : commaOrWord (lowerAscii t) = commaOrWord t := by
  rw [commaOrWord, Separator.orElse, Separator.orElse, comma_lowerAscii, spaced_lowerAscii]

private theorem afterWord?_lowerAscii (word t : Text) :
    afterWord? word (lowerAscii t) = (afterWord? word t).map lowerAscii := by
  rw [afterWord?, afterWord?]
  simp only [take_lowerAscii, drop_lowerAscii, sameAsciiLetters_lowerAscii, blankRun_lowerAscii]
  split
  · rw [trimStart, dropWhile_lowerAscii]
    rfl
  · rfl

private theorem lowerAscii_joined (sep : Text) (ts : List Text) :
    lowerAscii (joined sep ts) = joined (lowerAscii sep) (ts.map lowerAscii) := by
  match ts with
  | [] => rfl
  | [t] => rfl
  | t :: u :: rest =>
    have later := lowerAscii_joined sep (u :: rest)
    rw [lowerAscii] at later ⊢
    rw [joined, List.map_append, List.map_append, later]
    rfl

end Text

/-! ## Descriptors -/

namespace Media

private theorem query_lowerAscii (t : Text) : Query.ofText (Text.lowerAscii t) = Query.ofText t := by
  rw [← query_trim (Text.lowerAscii t), ← query_trim t]
  exact query_congr (beq_iff_eq.mpr (Text.lowerAscii_lowerAscii t))

/-- A descriptor comes to the same in any case. -/
theorem satisfy_lowerAscii (f : Features) (d : Text) : f.satisfy (Text.lowerAscii d) = f.satisfy d := by
  by_cases blank : d.trim = []
  · have lower : (Text.lowerAscii d).trim = [] := by
      rw [← Text.lowerAscii_trim, blank]
      rfl
    rw [Features.satisfy, Features.satisfy, QueryList.ofText, QueryList.ofText, blank, lower]
  · have lower : (Text.lowerAscii d).trim ≠ [] := by
      rw [← Text.lowerAscii_trim]
      exact fun none => blank (List.map_eq_nil_iff.mp none)
    have items : Text.cut Text.comma (Text.lowerAscii d.trim) = (Text.cut Text.comma d.trim).map Text.lowerAscii :=
      Text.cut_map Text.comma_lowerAscii _
    rw [satisfy_eq f lower, satisfy_eq f blank, ← Text.lowerAscii_trim, items, List.any_map]
    simp only [Function.comp_def, query_lowerAscii]

end Media

/-! ## Conditions -/

namespace Condition

mutual

/-- The condition with small letters and without identities. -/
def outline : Condition → Condition
  | always => always
  | never => never
  | leaf _ list inverted => leaf 0 ⟨0, Text.lowerAscii list.descriptor⟩ inverted
  | group _ junction cs => group 0 junction (outlines cs)

def outlines : List Condition → List Condition
  | [] => []
  | c :: cs => outline c :: outlines cs

end

private theorem outlines_eq (cs : List Condition) : outlines cs = cs.map outline := by
  induction cs with
  | nil => rfl
  | cons c cs ih => simp [outlines, ih]

private theorem outline_constant (b : Bool) : (constant b).outline = constant b := by
  cases b <;> rfl

mutual

/-- A condition and its outline are written alike but for the case of letters. -/
theorem lowerAscii_text_outline : (c : Condition) → Text.lowerAscii c.outline.text = Text.lowerAscii c.text
  | always => rfl
  | never => rfl
  | leaf _ l false => Text.lowerAscii_lowerAscii l.descriptor
  | leaf _ l true => by
    have descriptor := Text.lowerAscii_lowerAscii l.descriptor
    rw [Text.lowerAscii] at descriptor ⊢
    exact congrArg ("not ".toList ++ ·) descriptor
  | group _ j cs => by
    show Text.lowerAscii (Text.joined j.separator (texts (outlines cs))) =
      Text.lowerAscii (Text.joined j.separator (texts cs))
    rw [Text.lowerAscii_joined, Text.lowerAscii_joined, lowerAscii_texts_outlines cs]

theorem lowerAscii_texts_outlines : (cs : List Condition) →
    (texts (outlines cs)).map Text.lowerAscii = (texts cs).map Text.lowerAscii
  | [] => rfl
  | c :: cs => congrArg₂ List.cons (lowerAscii_text_outline c) (lowerAscii_texts_outlines cs)

end

private theorem isAlways_outline (c : Condition) : c.outline.isAlways = c.isAlways := by
  cases c with
  | always | never => rfl
  | leaf id l inverted =>
    exact congrArg (· == Text.lowerAscii allText) (lowerAscii_text_outline (leaf id l inverted))
  | group id j cs => exact congrArg (· == Text.lowerAscii allText) (lowerAscii_text_outline (group id j cs))

private theorem isNever_outline (c : Condition) : c.outline.isNever = c.isNever := by
  cases c with
  | always | never => rfl
  | leaf id l inverted =>
    exact congrArg (· == Text.lowerAscii notAllText) (lowerAscii_text_outline (leaf id l inverted))
  | group id j cs => exact congrArg (· == Text.lowerAscii notAllText) (lowerAscii_text_outline (group id j cs))

private theorem absorbs_outline (j : Junction) (c : Condition) : absorbs j c.outline = absorbs j c := by
  cases j with
  | all => exact isNever_outline c
  | any => exact isAlways_outline c

private theorem vanishes_outline (j : Junction) (c : Condition) : vanishes j c.outline = vanishes j c := by
  cases j with
  | all => exact isAlways_outline c
  | any => exact isNever_outline c

/-- What is folded away in a group shows in its outline. -/
theorem outline_combine (id : NodeId) (j : Junction) (cs : List Condition) :
    (combine id j cs).outline = combine 0 j (cs.map outline) := by
  rw [combine, combine, List.any_map, List.filter_map]
  simp only [Function.comp_def, absorbs_outline, vanishes_outline]
  split
  · exact outline_constant _
  · rcases cs.filter fun c => !vanishes j c with _ | ⟨c, _ | ⟨d, rest⟩⟩
    · exact outline_constant _
    · rfl
    · simp only [outline, outlines_eq, List.map_cons]

mutual

/-- Simplifying sees neither identities nor case. -/
theorem outline_simplify : (c : Condition) → c.simplify.outline = c.outline.simplify
  | always => rfl
  | never => rfl
  | leaf id l inverted => by
    have always := isAlways_outline (leaf id l inverted)
    have never := isNever_outline (leaf id l inverted)
    simp only [outline] at always never
    simp only [simplify, outline, always, never]
    split
    · rfl
    · split <;> rfl
  | group id j cs => by
    rw [simplify, outline_combine, outline, simplify, simplifyAll_outlines cs]

theorem simplifyAll_outlines : (cs : List Condition) → simplifyAll (outlines cs) = (simplifyAll cs).map outline
  | [] => rfl
  | c :: cs => congrArg₂ List.cons (outline_simplify c).symm (simplifyAll_outlines cs)

end

mutual

/-- A condition comes to what its outline comes to. -/
theorem holds_outline {f : Media.Features} : (c : Condition) → c.outline.holds f.view = c.holds f.view
  | always => rfl
  | never => rfl
  | leaf _ l inverted => congrArg (· != inverted) (Media.satisfy_lowerAscii f l.descriptor)
  | group _ .all cs => by
    rw [outline, holds_group, holds_group]
    simpa only [List.all_map, Function.comp_def] using congrArg (·.all fun b => b) (holds_outlines cs)
  | group _ .any cs => by
    rw [outline, holds_group, holds_group]
    simpa only [List.any_map, Function.comp_def] using congrArg (·.any fun b => b) (holds_outlines cs)

theorem holds_outlines {f : Media.Features} : (cs : List Condition) →
    (outlines cs).map (holds f.view) = cs.map (holds f.view)
  | [] => rfl
  | c :: cs => congrArg₂ List.cons (holds_outline c) (holds_outlines cs)

end

end Condition

/-! ## Terms -/

namespace Term

def lowered : Term → Term
  | constant holds => constant holds
  | watch descriptor inverted => watch (Text.lowerAscii descriptor) inverted

private theorem stripNot_lowerAscii (t : Text) :
    stripNot (Text.lowerAscii t) = ((stripNot t).1, Text.lowerAscii (stripNot t).2) := by
  rw [stripNot, stripNot, Text.afterWord?_lowerAscii]
  cases Text.afterWord? "not".toList t <;> rfl

private theorem lowered_ofDescriptor (d : Text) (inverted : Bool) :
    ofDescriptor (Text.lowerAscii d) inverted = (ofDescriptor d inverted).lowered := by
  have some : (Text.lowerAscii d).isEmpty = d.isEmpty := by cases d <;> rfl
  rw [ofDescriptor, ofDescriptor, some, Text.sameAsciiLetters_lowerAscii, Text.sameAsciiLetters_lowerAscii]
  split
  · rfl
  · split
    · rfl
    · split <;> rfl

end Term

namespace Registry

private theorem isTokenChar_toLower (c : Char) : isTokenChar c.toLower = isTokenChar c := by
  simp only [isTokenChar, Text.isAlphanum_toLower, Text.toLower_eq_iff (by decide : '.'.toNat < 65),
    Text.toLower_eq_iff (by decide : '+'.toNat < 65), Text.toLower_eq_iff (by decide : '-'.toNat < 65)]

private theorem token?_of_ne {c : Char} (other : c ≠ '@') (rest : Text) : token? (c :: rest) = none := by
  rw [token?]
  rintro token ⟨⟩
  exact other rfl

private theorem token?_lowerAscii (t : Text) : token? (Text.lowerAscii t) = (token? t).map Text.lowerAscii := by
  cases t with
  | nil => rfl
  | cons c token =>
    by_cases sign : c = '@'
    · subst sign
      have length : (Text.lowerAscii token).isEmpty = token.isEmpty := by cases token <;> rfl
      have characters : (Text.lowerAscii token).all isTokenChar = token.all isTokenChar := by
        rw [Text.lowerAscii, List.all_map]
        simp only [Function.comp_def, isTokenChar_toLower]
      show (if !(Text.lowerAscii token).isEmpty && (Text.lowerAscii token).all isTokenChar then
        some (Text.lowerAscii token) else none) = _
      rw [length, characters, token?]
      split <;> rfl
    · have other : c.toLower ≠ '@' := fun same => sign ((Text.toLower_eq_iff (by decide)).mp same)
      rw [token?_of_ne sign]
      exact token?_of_ne other (Text.lowerAscii token)

/-- A term is replaced by the same in any case, or stays as it is. -/
theorem lowerAscii_preprocess (r : Registry) (t : Text) :
    Text.lowerAscii (r.preprocess (Text.lowerAscii t)) = Text.lowerAscii (r.preprocess t) := by
  rw [preprocess, preprocess, token?_lowerAscii]
  cases token? t with
  | none => exact Text.lowerAscii_lowerAscii t
  | some token =>
    simp only [Option.map_some, Text.lowerAscii_lowerAscii]
    cases r.resolve? (Text.lowerAscii token) with
    | none => exact Text.lowerAscii_lowerAscii t
    | some shortcut => rfl

end Registry

/-- What a text denotes is the same term in any case. -/
theorem Term.lowered_ofText (r : Registry) (t : Text) :
    (ofText r (Text.lowerAscii t)).lowered = (ofText r t).lowered := by
  have processed : Text.lowerAscii (r.preprocess (stripNot (Text.lowerAscii t.trim)).2).trim =
      Text.lowerAscii (r.preprocess (stripNot t.trim).2).trim := by
    rw [Text.lowerAscii_trim, stripNot_lowerAscii, r.lowerAscii_preprocess, ← Text.lowerAscii_trim]
  have inner := (stripNot_lowerAscii _).symm.trans ((congrArg stripNot processed).trans (stripNot_lowerAscii _))
  have outer : (stripNot (Text.lowerAscii t.trim)).1 = (stripNot t.trim).1 := by rw [stripNot_lowerAscii]
  rw [ofText, ofText, ← Text.lowerAscii_trim]
  simp only [← lowered_ofDescriptor, (Prod.mk.inj inner).1, (Prod.mk.inj inner).2, outer]

/-- A query has the same groups of terms in any case. -/
theorem Registry.groups_lowerAscii (r : Registry) (query : Text) :
    (r.groups (Text.lowerAscii query)).map (List.map Term.lowered) = (r.groups query).map (List.map Term.lowered) := by
  have terms (group : Text) : (Text.cut Text.andWord (Text.lowerAscii group)).map (fun t => (Term.ofText r t).lowered) =
      (Text.cut Text.andWord group).map fun t => (Term.ofText r t).lowered := by
    rw [Text.andWord, Text.cut_spaced_lowerAscii, List.map_map]
    simp only [Function.comp_def, Term.lowered_ofText]
  have cuts :
      Text.cut Text.commaOrWord (Text.lowerAscii query) = (Text.cut Text.commaOrWord query).map Text.lowerAscii :=
    Text.cut_map Text.commaOrWord_lowerAscii query
  simp only [groups, cuts, List.map_map, Function.comp_def, terms]

namespace Condition

def ofLowered : Term → Condition
  | .constant holds => constant holds
  | .watch descriptor inverted => leaf 0 ⟨0, descriptor⟩ inverted

private theorem outline_ofTerm (next : NodeId) (t : Term) : (ofTerm next t).1.outline = ofLowered t.lowered := by
  cases t with
  | constant b => exact outline_constant b
  | watch descriptor inverted => rfl

private theorem outlines_ofTerms (next : NodeId) (ts : List Term) :
    outlines (ofTerms next ts).1 = (ts.map Term.lowered).map ofLowered := by
  induction ts generalizing next with
  | nil => rfl
  | cons t ts ih => exact congrArg₂ List.cons (outline_ofTerm next t) (ih _)

private theorem outlines_ofGroups (next : NodeId) (groups : List (List Term)) :
    outlines (ofGroups next groups).1 =
      (groups.map (List.map Term.lowered)).map fun ts => group 0 .all (ts.map ofLowered) := by
  induction groups generalizing next with
  | nil => rfl
  | cons ts groups ih => exact congrArg₂ List.cons (congrArg (group 0 .all) (outlines_ofTerms (next + 1) ts)) (ih _)

/-- The outline of a compiled query depends on the groups of its terms. -/
theorem outline_compile (r : Registry) (next : NodeId) (query : Text) :
    (compile r next query).1.outline =
      if query.trim.isEmpty then always
      else (group 0 .any (((r.groups query.trim).map (List.map Term.lowered)).map fun ts =>
        group 0 .all (ts.map ofLowered))).simplify := by
  rw [compile]
  split
  · rfl
  · simp only [outline_simplify, outline, outlines_ofGroups]

/-- Compiling sees no case. -/
theorem outline_compile_lowerAscii (r : Registry) (next next' : NodeId) (query : Text) :
    (compile r next (Text.lowerAscii query)).1.outline = (compile r next' query).1.outline := by
  have some : (Text.lowerAscii query.trim).isEmpty = query.trim.isEmpty := by cases query.trim <;> rfl
  rw [outline_compile, outline_compile, ← Text.lowerAscii_trim, some, r.groups_lowerAscii]

end Condition

/-- Two queries that agree up to the case of ASCII letters are compiled to conditions of one outline, whoever compiled
what in between, and these hold in the same environments. -/
theorem Watcher.compile_caseless (w w' : Watcher) (registry : w.registry = w'.registry) {q q' : Text}
    (same : Text.sameAsciiLetters q q') :
    (w.compile q).1.outline = (w'.compile q').1.outline ∧
      ∀ e : Engine, e.connected = true → (w.compile q).1.holds e.view = (w'.compile q').1.holds e.view := by
  have outlines : (w.compile q).1.outline = (w'.compile q').1.outline := by
    show (Condition.compile w.registry w.engine.nextNode q).1.outline =
      (Condition.compile w'.registry w'.engine.nextNode q').1.outline
    rw [← Condition.outline_compile_lowerAscii w.registry 0, ← Condition.outline_compile_lowerAscii w'.registry 0,
      registry, beq_iff_eq.mp same]
  refine ⟨outlines, fun e connected => ?_⟩
  rw [Engine.view_of_connected connected, ← Condition.holds_outline, outlines, Condition.holds_outline]

/-- A shortcut, a negation, a constant and a length, each in two cases, and compiled one after the other. -/
theorem Watcher.compile_caseless_shouted :
    let w := Watcher.start {} QueryText.hoverless
    let shouted := "NOT @Quiet AND Only Screen OR ALL AND (MIN-WIDTH: 90EM)".toList
    let plain := "not @quiet and only screen or all and (min-width: 90em)".toList
    Text.sameAsciiLetters shouted plain = true ∧
      (w.compile shouted).1.outline = ((w.compile shouted).2.compile plain).1.outline ∧
      (w.compile shouted).1.holds w.view = ((w.compile shouted).2.compile plain).1.holds w.view := by
  intro w shouted plain
  have same : Text.sameAsciiLetters shouted plain = true := by decide
  obtain ⟨outlines, means⟩ := Watcher.compile_caseless w (w.compile shouted).2 rfl same
  exact ⟨same, outlines, means w.engine rfl⟩

end MediaWatch
