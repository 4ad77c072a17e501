import MediaWatch.Proofs.Condition.Written
import MediaWatch.Proofs.Query.Legible

/-! # Conditions are written as queries

Compiled again, the written form of a condition gives a condition that holds whenever the first does, unless one of its
terms is not read as it was written. There are no parentheses, so what a shortcut stands for takes part in the query
around it: a `not` in front of it goes to the first of its terms alone, and a comma in it ends the group.
-/

namespace MediaWatch

/-- A descriptor that is one term and stands for itself. -/
structure Registry.IsTerm (r : Registry) (d : Text) : Prop where
  literal : r.Literal d
  group : Text.cut Text.commaOrWord d = [d]
  term : Text.cut Text.andWord d = [d]

/-- The words of a text separate nothing, whatever words are put in front of it and behind it. -/
structure Text.Sealed (t : Text) : Prop where
  orless : ∀ w ∈ words t, ¬ sameAsciiLetters w "or".toList
  starts : ∀ w ∈ (words t).head?, ¬ sameAsciiLetters w "and".toList
  ends : ∀ w ∈ (words t).getLast?, ¬ sameAsciiLetters w "and".toList

/-- What is watched for a term is read again as it is written, alone in its group or with other terms: if no shortcut is
replaced, if it is a single term, or if it is legible and not inverted. -/
inductive Registry.Keeps (r : Registry) (t : Text) (alone : Prop) : Text → Bool → Prop
  | plain {d : Text} {inverted : Bool} (unreplaced : r.preprocess (Term.stripNot t.trim).2 = (Term.stripNot t.trim).2)
      (literal : r.Literal d) : Keeps r t alone d inverted
  | single {d : Text} {inverted : Bool} (single : r.IsTerm d) (apart : (alone ∧ inverted = false) ∨ Text.Sealed d) :
      Keeps r t alone d inverted
  | legible {d : Text} (legible : r.IsLegible d) (apart : alone ∨ (',' ∉ d ∧ Text.Sealed d)) : Keeps r t alone d false

def Registry.terms (r : Registry) (g : Text) : List Term := (Text.cut Text.andWord g).map (Term.ofText r)

/-- What is watched for the terms of a group is read again as it is written. -/
def Registry.KeepsGroup (r : Registry) (g : Text) : Prop :=
  ∀ t ∈ Text.cut Text.andWord g, ∀ descriptor inverted, Term.ofText r t = .watch descriptor inverted →
    r.Keeps t ((Term.remaining (r.terms g)).length = 1) descriptor inverted

/-- So it is for all groups of a query that may hold. -/
def Registry.IsFaithful (r : Registry) (query : Text) : Prop :=
  ∀ g ∈ Text.cut Text.commaOrWord query.trim, Term.constant false ∉ r.terms g → r.KeepsGroup g

/-- A descriptor is read as a query: as a single term, or as the evaluator reads it. -/
def Registry.Rereads (r : Registry) (alone : Prop) (d : Text) (inverted : Bool) : Prop :=
  r.IsTerm d ∨ (inverted = false ∧ r.IsLegible d ∧ (alone ∨ ',' ∉ d))

variable {r : Registry} {f : Media.Features} {d g q t u rest word : Text} {inverted : Bool} {before after alone : Prop}
  {x : Term} {xs : List Term}

/-! ## Stripping a term -/

namespace Term

/-- What is stripped off a text is its first word. -/
theorem Negates.words (negates : Negates t rest) (closed : Text.Closed t) :
    Text.Closed rest ∧ rest <:+ t ∧ ∃ x, Text.words t = x :: Text.words rest := by
  obtain ⟨x, b, rfl, same, behind, blank, starts⟩ := negates
  have letters := Text.not_isBlank_of_sameAsciiLetters same Text.isKeyword_not.solid
  have split := Text.words_blanks behind blank x rest
  rw [Text.words_of_solid letters (Text.isKeyword_not.some_of_same same)] at split
  exact ⟨Text.closed_behind closed behind blank starts, ⟨x ++ b, List.append_assoc x b rest⟩, x, split⟩

/-- What is left of a text whose `not` is stripped is the end of it, and less if it had one. -/
theorem stripNot_words (closed : Text.Closed t) : Text.Closed (stripNot t).2 ∧ (stripNot t).2 <:+ t ∧
    ∃ front, Text.words t = front ++ Text.words (stripNot t).2 ∧ ((stripNot t).1 → front ≠ []) := by
  by_cases negates : ∃ rest, Negates t rest
  · obtain ⟨rest, negates⟩ := negates
    obtain ⟨closedRest, suffix, x, split⟩ := negates.words closed
    rw [stripNot_of_negates negates]
    exact ⟨closedRest, suffix, [x], split, fun _ => List.cons_ne_nil _ _⟩
  · rw [stripNot_of_not_negates (not_exists.mp negates)]
    exact ⟨closed, List.suffix_refl t, [], rfl, nofun⟩

end Term

/-! ## What is watched for a term -/

namespace Term

/-- What is watched for a term is left of it when its shortcut is replaced and each `not` is stripped. -/
theorem eq_of_watch (watches : ofText r t = .watch d inverted) :
    d = (stripNot (r.preprocess (stripNot t.trim).2).trim).2 ∧
      inverted = ((stripNot t.trim).1 != (stripNot (r.preprocess (stripNot t.trim).2).trim).1) ∧ d ≠ [] := by
  rw [ofText] at watches
  dsimp only at watches
  generalize (stripNot (r.preprocess (stripNot t.trim).2).trim).2 = descriptor at *
  rw [ofDescriptor] at watches
  split at watches
  · contradiction
  next some =>
  split at watches
  · contradiction
  split at watches
  · contradiction
  obtain ⟨rfl, rfl⟩ := Term.watch.inj watches
  exact ⟨rfl, rfl, fun none => some (List.isEmpty_iff.mpr none)⟩

/-- What is watched for a term neither starts nor ends with a blank. -/
theorem closed_of_watch (watches : ofText r t = .watch d inverted) : Text.Closed d := by
  obtain ⟨rfl, -, some⟩ := eq_of_watch watches
  obtain ⟨-, -, -, -, -, none | closed⟩ := Text.exists_trim (r.preprocess (stripNot t.trim).2)
  · rw [none] at some
    exact absurd rfl some
  · exact (stripNot_words closed).1

/-- Where no shortcut is replaced, the end of the term is watched that comes behind each `not`. -/
theorem words_of_watch (watches : ofText r t = .watch d inverted) (closed : Text.Closed t)
    (unreplaced : r.preprocess (stripNot t.trim).2 = (stripNot t.trim).2) :
    d <:+ t ∧ ∃ front, Text.words t = front ++ Text.words d ∧ (inverted → front ≠ []) := by
  obtain ⟨rfl, rfl, -⟩ := eq_of_watch watches
  rw [unreplaced, Text.trim_closed closed]
  obtain ⟨closedRest, suffix, outer, split, negated⟩ := stripNot_words closed
  rw [Text.trim_closed closedRest]
  obtain ⟨-, suffixRest, inner, splitRest, negatedRest⟩ := stripNot_words closedRest
  refine ⟨suffixRest.trans suffix, outer ++ inner, by rw [split, splitRest, List.append_assoc], fun inverted none => ?_⟩
  obtain ⟨noOuter, noInner⟩ := List.append_eq_nil_iff.mp none
  have plain : (stripNot t).1 = false := Bool.eq_false_iff.mpr fun stripped => negated stripped noOuter
  have plainRest : (stripNot (stripNot t).2).1 = false :=
    Bool.eq_false_iff.mpr fun stripped => negatedRest stripped noInner
  rw [plain, plainRest] at inverted
  contradiction

/-! ## What is written for a term -/

private theorem words_text (d : Text) (inverted : Bool) :
    Text.words (watch d inverted).text = (if inverted then ["not".toList] else []) ++ Text.words d := by
  cases inverted with
  | false => rfl
  | true => exact Text.words_append_cons (by decide) "not".toList d

theorem closed_text (closed : Text.Closed d) (inverted : Bool) : Text.Closed (watch d inverted).text := by
  cases inverted with
  | false => exact closed
  | true => exact Media.plainNot.closed closed

/-- The words of what is written are free of a keyword other than `not` if those of the descriptor are. -/
theorem free_text (free : Text.Free word (inverted ∨ before) after (Text.words d))
    (other : ¬ Text.sameAsciiLetters "not".toList word) :
    Text.Free word before after (Text.words (watch d inverted).text) := by
  rw [words_text]
  cases inverted with
  | false => exact free.mono .inr id
  | true => exact Text.free_append Text.free_nil other (free.mono (fun _ => .inl rfl) id)

/-- What is written for a term separates nothing with what stands before and behind it, nor in itself if its descriptor
does not. -/
structure Fits (before after : Prop) (d : Text) (inverted : Bool) : Prop where
  orless : Text.Free "or".toList before after (Text.words (watch d inverted).text)
  ends : after → Text.EndsFree "and".toList (Text.words (watch d inverted).text)
  single : Text.andWord.Misses d → Text.andWord.Misses (watch d inverted).text

/-- What is written where no shortcut is replaced fits where the term was. -/
theorem fits_of_words {front : List Text} (closed : Text.Closed d) (split : Text.words t = front ++ Text.words d)
    (some : inverted → front ≠ []) (or : Text.Free "or".toList before after (Text.words t))
    (and : Text.Free "and".toList False after (Text.words t)) : Fits before after d inverted := by
  have free : ∀ {word : Text} {before : Prop}, Text.Free word before after (Text.words t) →
      Text.Free word (inverted ∨ before) after (Text.words d) := by
    intro word before free
    rw [split] at free
    cases inverted with
    | false => exact free.suffix.mono (fun first => first.resolve_left nofun) id
    | true => exact (free.behind (some rfl)).mono (fun _ => trivial) id
  have written := free_text (free and) (by decide)
  refine ⟨free_text (free or) (by decide), fun later l w split first => ?_, fun _ => ?_⟩
  · exact written l w [] split (.inr first) (.inl later)
  · exact Text.misses_of_free Text.isKeyword_and (closed_text closed inverted) (written.mono id False.elim)

/-- What is written for a sealed descriptor fits anywhere. -/
theorem fits_of_sealed (closed : Text.Closed d) (sealed : Text.Sealed d) : Fits before after d inverted := by
  refine ⟨free_text (fun l w r split _ _ => ?_) (by decide), fun _ l w split _ => ?_, fun misses => ?_⟩
  · exact sealed.orless w (by simp [split])
  · have last := congrArg List.getLast? split
    rw [words_text, List.getLast?_append_of_ne_nil _ closed.words_ne_nil, List.getLast?_concat] at last
    exact sealed.ends w last
  · -- The descriptor alone may start with `and`, but with a `not` in front that would separate.
    have alone := Text.free_of_misses Text.isKeyword_and misses
    refine Text.misses_of_free Text.isKeyword_and (closed_text closed inverted) (free_text ?_ (by decide))
    intro l w r split _ last
    cases l with
    | nil => exact sealed.starts w (by simp [split])
    | cons v l => exact alone (v :: l) w r split (.inr (List.cons_ne_nil v l)) last

end Term

namespace Registry

/-- A single term neither has a comma nor an `and` between blanks. -/
theorem IsTerm.misses (single : r.IsTerm d) : ',' ∉ d ∧ Text.andWord.Misses d := by
  have group : d ∈ Text.cut Text.commaOrWord d := by simp [single.group]
  have term : d ∈ Text.cut Text.andWord d := by simp [single.term]
  have misses := (Text.misses_of_mem_cut Text.finds_commaOrWord group).orElse
  exact ⟨Text.commaless_of_misses misses.1, Text.misses_of_mem_cut Text.finds_andWord term⟩

/-- What is watched for a term is a single term, or it is legible and not inverted. -/
theorem Keeps.rereads (keeps : r.Keeps t alone d inverted) (watches : Term.ofText r t = .watch d inverted)
    (closed : Text.Closed t) (group : Text.commaOrWord.Misses t) (term : Text.andWord.Misses t) :
    r.Rereads alone d inverted := by
  cases keeps with
  | plain unreplaced literal =>
    obtain ⟨⟨u, rfl⟩, -⟩ := Term.words_of_watch watches closed unreplaced
    rw [← List.append_nil d] at group term
    refine .inl ⟨literal, ?_, ?_⟩
    · exact Text.cut_of_misses (group.inside Text.finds_commaOrWord)
    · exact Text.cut_of_misses (term.inside Text.finds_andWord)
  | single single _ => exact .inl single
  | legible legible apart => exact .inr ⟨rfl, legible, apart.imp_right And.left⟩

/-- What is written for a term fits where the term was. -/
theorem Keeps.fits (keeps : r.Keeps t alone d inverted) (watches : Term.ofText r t = .watch d inverted)
    (closed : Text.Closed t) (others : ¬ (alone ∧ inverted = false))
    (or : Text.Free "or".toList before after (Text.words t)) (and : Text.Free "and".toList False after (Text.words t)) :
    Term.Fits before after d inverted := by
  have closedHere := Term.closed_of_watch watches
  cases keeps with
  | plain unreplaced literal =>
    obtain ⟨-, front, split, some⟩ := Term.words_of_watch watches closed unreplaced
    exact Term.fits_of_words closedHere split some or and
  | single _ apart => exact Term.fits_of_sealed closedHere (apart.resolve_left others)
  | legible _ apart => exact Term.fits_of_sealed closedHere (apart.resolve_left fun alone => others ⟨alone, rfl⟩).2

/-- What is written for a term comes to what the term does, also with other terms beside it. -/
theorem Rereads.holds (reads : r.Rereads alone d inverted) (closed : Text.Closed d)
    (fits : Term.Fits before after d inverted) (others : ¬ (alone ∧ inverted = false)) :
    ',' ∉ (Term.watch d inverted).text ∧
      ((Text.cut Text.andWord (Term.watch d inverted).text).all fun u => (Term.ofText r u).holds f) =
        (Term.watch d inverted).holds f := by
  rcases reads with single | ⟨rfl, legible, commaless⟩
  · obtain ⟨commaless, misses⟩ := single.misses
    rw [Text.cut_of_misses (fits.single misses), List.all_cons, List.all_nil, Bool.and_true]
    cases inverted with
    | false =>
      refine ⟨commaless, ?_⟩
      rw [Term.text, if_neg (by decide), Term.holds_ofText_closed single.literal closed, Term.holds, Bool.bne_false]
    | true =>
      refine ⟨fun mem => (List.mem_append.mp mem).elim (by decide) commaless, ?_⟩
      have negates : Term.Negates (Term.watch d true).text d :=
        Term.negates_lead (l := Media.plainNot) rfl closed.starts
      rw [Term.holds_ofText_negated negates (Text.trim_closed (Term.closed_text closed true)) closed single.literal]
      simp [Term.holds]
  · replace commaless := commaless.resolve_left fun alone => others ⟨alone, rfl⟩
    refine ⟨commaless, ?_⟩
    have item : d ∈ Text.cut Text.comma d := by simp [Text.cut_of_misses (Text.misses_comma commaless)]
    rw [Term.text, if_neg (by decide), (legible.fair d item).holds (.inr closed) commaless, Term.holds, Bool.bne_false,
      Media.satisfy_item f closed commaless]

/-- What is written for a term that is alone and not inverted comes to what the term does. -/
theorem Rereads.value (reads : r.Rereads alone d false) (closed : Text.Closed d) : r.queryValue f d = f.satisfy d := by
  rcases reads with single | ⟨-, legible, -⟩
  · rw [queryValue, single.group, List.any_cons, single.term, List.all_cons,
      Term.holds_ofText_closed single.literal closed]
    simp
  · exact legible.value closed

end Registry

/-! ## Groups -/

/-- Terms that were next to each other still separate nothing when some of them are left out. -/
theorem joinable_remaining {ts : List Text} (spread : Text.Spread before ts)
    (fits : ∀ t ∈ ts, ∀ d inverted, Term.ofText r t = .watch d inverted → ∀ before after : Prop,
      Text.Free "or".toList before after (Text.words t) → Text.Free "and".toList False after (Text.words t) →
        Term.Fits before after d inverted)
    (possible : ∀ t ∈ ts, Term.ofText r t ≠ .constant false) :
    Text.Joinable before ((Term.remaining (ts.map (Term.ofText r))).map Term.text) := by
  -- A term that is left out only takes a neighbour from the others, so they are as free of keywords as before.
  induction ts generalizing before with
  | nil => trivial
  | cons t ts ih =>
    have rest := ih spread.2.2 (fun t mem => fits t (List.mem_cons_of_mem _ mem))
      fun t mem => possible t (List.mem_cons_of_mem _ mem)
    rw [List.map_cons]
    cases term : Term.ofText r t with
    | constant b =>
      cases b with
      | false => exact absurd term (possible t List.mem_cons_self)
      | true =>
        rw [Term.remaining_always]
        exact rest.mono fun _ => trivial
    | watch d inverted =>
      have here := fits t List.mem_cons_self d inverted term before (ts ≠ []) spread.1 spread.2.1
      have more : (Term.remaining (ts.map (Term.ofText r))).map Term.text ≠ [] → ts ≠ [] := by
        rintro some rfl
        exact some rfl
      rw [Term.remaining_watch, List.map_cons]
      exact Text.joinable_cons (here.orless.mono id more) (fun some => here.ends (more some)) rest

namespace Registry

/-- Terms written with `and` between them come to the same as the terms. -/
theorem queryValue_written (some : xs ≠ []) (closed : ∀ x ∈ xs, Text.Closed x.text)
    (joinable : Text.Joinable False (xs.map Term.text))
    (each : ∀ x ∈ xs, ',' ∉ x.text ∧
      ((Text.cut Text.andWord x.text).all fun u => (Term.ofText r u).holds f) = x.holds f) :
    r.queryValue f (Term.written xs) = xs.all (Term.holds f) := by
  have someText : xs.map Term.text ≠ [] := List.map_eq_nil_iff.not.mpr some
  have closedText : ∀ t ∈ xs.map Term.text, Text.Closed t := List.forall_mem_map.mpr closed
  have closedWhole : Text.Closed (Term.written xs) := Text.closed_joined someText closedText
  have commaless : ',' ∉ Term.written xs := by
    intro mem
    rcases Text.mem_joined mem with mem | ⟨t, among, mem⟩
    · exact absurd mem (by decide)
    · obtain ⟨x, term, rfl⟩ := List.mem_map.mp among
      exact (each x term).1 mem
  have group := Text.misses_commaOrWord closedWhole commaless (Text.free_joined_and someText joinable)
  have terms : Text.cut Text.andWord (Term.written xs) = (xs.map Term.text).flatMap (Text.cut Text.andWord) :=
    Text.cut_joined_and someText closedText joinable
  rw [queryValue, Text.cut_of_misses group, List.any_cons, List.any_nil, Bool.or_false, terms, List.all_flatMap,
    List.all_map, Bool.eq_iff_iff, List.all_eq_true, List.all_eq_true]
  refine forall₂_congr fun x mem => ?_
  rw [Function.comp_apply, (each x mem).2]

/-- What is left of a group that may hold is watched for one of its terms. -/
theorem exists_of_mem_remaining (possible : Term.constant false ∉ r.terms g) (mem : x ∈ Term.remaining (r.terms g)) :
    ∃ t ∈ Text.cut Text.andWord g, ∃ d inverted, Term.ofText r t = .watch d inverted ∧ x = .watch d inverted := by
  obtain ⟨among, notAlways, notNever⟩ := Term.of_mem_remaining possible mem
  obtain ⟨t, term, rfl⟩ := List.mem_map.mp among
  refine ⟨t, term, ?_⟩
  cases eq : Term.ofText r t with
  | constant b =>
    cases b with
    | false => exact absurd eq notNever
    | true => exact absurd eq notAlways
  | watch d inverted => exact ⟨d, inverted, rfl, rfl⟩

private theorem closed_remaining (possible : Term.constant false ∉ r.terms g) :
    ∀ x ∈ Term.remaining (r.terms g), Text.Closed x.text := by
  intro x mem
  obtain ⟨t, term, d, inverted, watches, rfl⟩ := exists_of_mem_remaining possible mem
  exact Term.closed_text (Term.closed_of_watch watches) inverted

/-- Of a group of which more is left than a term that is not inverted, each term is inverted or has others beside it. -/
theorem not_alone (several : ∀ d, Term.remaining (r.terms g) ≠ [.watch d false]) (term : t ∈ Text.cut Text.andWord g)
    (watches : Term.ofText r t = .watch d inverted) :
    ¬ ((Term.remaining (r.terms g)).length = 1 ∧ inverted = false) := by
  rintro ⟨one, rfl⟩
  obtain ⟨x, alone⟩ := List.length_eq_one_iff.mp one
  have mem : Term.watch d false ∈ Term.remaining (r.terms g) :=
    List.mem_filter.mpr ⟨List.mem_map.mpr ⟨t, term, watches⟩, by simp⟩
  rw [alone, List.mem_singleton] at mem
  exact several d (by rw [alone, mem])

namespace KeepsGroup

theorem rereads (keeps : r.KeepsGroup g) (closed : Text.Closed g) (group : Text.commaOrWord.Misses g)
    (term : t ∈ Text.cut Text.andWord g) (watches : Term.ofText r t = .watch d inverted) :
    r.Rereads ((Term.remaining (r.terms g)).length = 1) d inverted := by
  have groupHere : Text.commaOrWord.Misses t := by
    obtain ⟨u, v, rfl, -⟩ := Text.standsIn_of_mem_cut Text.finds_andWord term
    exact group.inside Text.finds_commaOrWord
  have closedTerm := Text.closed_of_mem_cut Text.isKeyword_and closed term
  exact (keeps t term d inverted watches).rereads watches closedTerm groupHere
    (Text.misses_of_mem_cut Text.finds_andWord term)

theorem fits (keeps : r.KeepsGroup g) (closed : Text.Closed g)
    (several : ∀ d, Term.remaining (r.terms g) ≠ [.watch d false]) (term : t ∈ Text.cut Text.andWord g)
    (watches : Term.ofText r t = .watch d inverted) (or : Text.Free "or".toList before after (Text.words t))
    (and : Text.Free "and".toList False after (Text.words t)) : Term.Fits before after d inverted := by
  have closedTerm := Text.closed_of_mem_cut Text.isKeyword_and closed term
  exact (keeps t term d inverted watches).fits watches closedTerm (not_alone several term watches) or and

/-- A term that is all that is left of a group, and not inverted, is written in a text that comes to the same. -/
theorem value_single (keeps : r.KeepsGroup g) (closed : Text.Closed g) (group : Text.commaOrWord.Misses g)
    (possible : Term.constant false ∉ r.terms g) (single : Term.remaining (r.terms g) = [.watch d false]) :
    r.queryValue f d = f.satisfy d := by
  obtain ⟨t, term, d', inverted, watches, same⟩ :=
    exists_of_mem_remaining (x := .watch d false) possible (by simp [single])
  obtain ⟨rfl, rfl⟩ := Term.watch.inj same
  exact (keeps.rereads closed group term watches).value (Term.closed_of_watch watches)

/-- Any other terms are written in a text that comes to the same. -/
theorem value_several (keeps : r.KeepsGroup g) (closed : Text.Closed g) (group : Text.commaOrWord.Misses g)
    (possible : Term.constant false ∉ r.terms g) (some : Term.remaining (r.terms g) ≠ [])
    (several : ∀ d, Term.remaining (r.terms g) ≠ [.watch d false]) :
    r.queryValue f (Term.written (Term.remaining (r.terms g))) = (Term.remaining (r.terms g)).all (Term.holds f) := by
  have spread := Text.spread_cut closed (Text.free_of_misses Text.isKeyword_or group.orElse.2)
  have joinable : Text.Joinable False ((Term.remaining (r.terms g)).map Term.text) := by
    refine joinable_remaining spread (fun t term d inverted watches before after or and => ?_) fun t term never => ?_
    · exact keeps.fits closed several term watches or and
    · exact possible (List.mem_map.mpr ⟨t, term, never⟩)
  refine queryValue_written some (closed_remaining possible) joinable fun x mem => ?_
  obtain ⟨t, term, d, inverted, watches, rfl⟩ := exists_of_mem_remaining possible mem
  obtain ⟨before, after, or, and⟩ := spread.of_mem term
  exact (keeps.rereads closed group term watches).holds (Term.closed_of_watch watches)
    (keeps.fits closed several term watches or and) (not_alone several term watches)

/-- What is left of a group is written in a text that comes to the same. -/
theorem value (keeps : r.KeepsGroup g) (closed : Text.Closed g) (group : Text.commaOrWord.Misses g)
    (possible : Term.constant false ∉ r.terms g) (some : Term.remaining (r.terms g) ≠ []) :
    r.queryValue f (Term.written (Term.remaining (r.terms g))) = (Term.remaining (r.terms g)).all (Term.holds f) := by
  -- Alone and not inverted, a descriptor may have commas: its items are then groups of their own.
  by_cases single : ∃ d, Term.remaining (r.terms g) = [.watch d false]
  · obtain ⟨d, single⟩ := single
    rw [single, List.all_cons, List.all_nil, Bool.and_true, Term.holds, Bool.bne_false]
    exact keeps.value_single closed group possible single
  · exact keeps.value_several closed group possible some (not_exists.mp single)

end KeepsGroup

end Registry

/-! ## Queries -/

/-- A query that neither starts nor ends with a blank comes to what its text does. -/
theorem Condition.holds_compiled_closed (r : Registry) (next : NodeId) (closed : Text.Closed t) :
    (compile r next t).1.holds f.view = r.queryValue f t := by
  have trimmed := Text.trim_closed closed
  rw [holds_compiled r next (by rw [trimmed]; exact closed.some), trimmed, Registry.groups, Registry.queryValue]
  simp only [List.any_map, List.all_map, Function.comp_def]

private theorem Condition.holds_compiled_all (r : Registry) (next : NodeId) :
    (compile r next allText).1.holds f.view = true := by
  rw [holds_compiled_closed r next (by decide)]
  rfl

private theorem Condition.holds_compiled_notAll (r : Registry) (next : NodeId) :
    (compile r next notAllText).1.holds f.view = false := by
  rw [holds_compiled_closed r next (by decide)]
  rfl

namespace Registry

/-- Texts written with commas between them hold whenever one of them does. -/
theorem queryValue_joined_comma {ts : List Text} (some : ts ≠ []) (closed : ∀ t ∈ ts, Text.Closed t) :
    r.queryValue f (Text.joined ", ".toList ts) = ts.any (r.queryValue f) := by
  rw [queryValue, Text.cut_joined_comma some closed, List.any_flatMap]
  rfl

/-- What is left of a faithful query is written in texts that come to the same. -/
theorem IsFaithful.value (faithful : r.IsFaithful q) (some : q.trim ≠ []) (undecided : [] ∉ r.kept q.trim) :
    ∀ ts ∈ r.kept q.trim, Text.Closed (Term.written ts) ∧ r.queryValue f (Term.written ts) = ts.all (Term.holds f) := by
  intro ts mem
  obtain ⟨group, kept, rfl⟩ := List.mem_map.mp mem
  obtain ⟨among, possible⟩ := List.mem_filter.mp kept
  obtain ⟨g, piece, rfl⟩ := List.mem_map.mp among
  have possible : Term.constant false ∉ r.terms g := by simpa [terms] using possible
  have inhabited : Term.remaining (r.terms g) ≠ [] := by
    intro none
    exact undecided (none ▸ mem)
  have closed : Text.Closed g := by
    obtain ⟨-, -, -, -, -, none | closed⟩ := Text.exists_trim q
    · exact absurd none some
    · refine (Text.neat_of_mem_cut Text.finds_commaOrWord closed.starts closed.ends piece).resolve_left ?_
      rintro rfl
      exact possible List.mem_cons_self
  constructor
  · exact Text.closed_joined (List.map_eq_nil_iff.not.mpr inhabited)
      (List.forall_mem_map.mpr (closed_remaining possible))
  · have misses := Text.misses_of_mem_cut Text.finds_commaOrWord piece
    exact (faithful g piece possible).value closed misses possible inhabited

end Registry

/-- Compiling changes no shortcut. -/
theorem Watcher.registry_compile (w : Watcher) (q : Text) : (w.compile q).2.registry = w.registry := rfl

/-- The condition of a faithful query is written in a text that is compiled to one with the same truth value, whatever
the environment is. -/
theorem holds_compile_text (w w' : Watcher) {e : Engine} (connected : e.connected = true)
    (same : w'.registry = w.registry) (faithful : w.registry.IsFaithful q) :
    (w'.compile (w.compile q).1.text).1.holds e.view = (w.compile q).1.holds e.view := by
  show (Condition.compile w'.registry w'.engine.nextNode
    (Condition.compile w.registry w.engine.nextNode q).1.text).1.holds
    e.view = (Condition.compile w.registry w.engine.nextNode q).1.holds e.view
  rw [Engine.view_of_connected connected, same]
  by_cases some : q.trim = []
  · have always : (Condition.compile w.registry w.engine.nextNode q).1 = .always := by
      rw [Condition.compile, some]
      rfl
    rw [always]
    exact Condition.holds_compiled_all _ _
  -- What is written is a constant if nothing is left of some group or no group is left, and else the groups.
  rw [Condition.text_kept _ _ some, Condition.holds_compiled _ _ some, ← Registry.holds_kept]
  split
  · next decided =>
    rw [Condition.holds_compiled_all]
    exact (List.any_eq_true.mpr ⟨[], decided, rfl⟩).symm
  next undecided =>
  split
  · next none =>
    rw [Condition.holds_compiled_notAll, none]
    rfl
  next inhabited =>
  have value := faithful.value (f := e.features) some undecided
  have someText : (w.registry.kept q.trim).map Term.written ≠ [] := List.map_eq_nil_iff.not.mpr inhabited
  have closed := List.forall_mem_map.mpr fun ts mem => (value ts mem).1
  rw [Condition.holds_compiled_closed _ _ (Text.closed_joined someText closed),
    Registry.queryValue_joined_comma someText closed, List.any_map, Bool.eq_iff_iff, List.any_eq_true, List.any_eq_true]
  refine exists_congr fun ts => and_congr_right fun mem => ?_
  rw [Function.comp_apply, (value ts mem).2]

def laptopRegistry : Registry :=
  { Registry.standard with
    environment :=
      Registry.standard.environment.add "laptop".toList (.descriptor "(hover: hover) and (pointer: fine)".toList) }

private theorem keeps_laptop (t : Text) (alone : Prop) :
    laptopRegistry.Keeps t alone "(hover: hover) and (pointer: fine)".toList false := by
  have items : Text.cut Text.comma "(hover: hover) and (pointer: fine)".toList =
    ["(hover: hover) and (pointer: fine)".toList] := by decide +kernel
  have parts : Text.cut Text.andWord "(hover: hover) and (pointer: fine)".toList =
    ["(hover: hover)".toList, "(pointer: fine)".toList] := by decide +kernel
  refine .legible ⟨by decide +kernel, ?_⟩ (.inr ⟨by decide, by decide +kernel, by decide +kernel, by decide +kernel⟩)
  rw [items]
  rintro item (_ | ⟨_, _ | _⟩)
  refine .bare (by decide +kernel) ?_
  rw [parts]
  rintro t (_ | ⟨_, _ | ⟨_, _ | _⟩⟩)
  · exact ⟨⟨by decide, by decide⟩, by decide +kernel⟩
  · exact ⟨⟨by decide, by decide⟩, by decide +kernel⟩

/-- A group with the shortcut beside another term, a group with a constant, and a group that never holds. -/
def portable : Text := "not Print and @laptop, ALL and screen , not all and (hover)".toList

private theorem isFaithful_portable : laptopRegistry.IsFaithful portable := by
  have groups : Text.cut Text.commaOrWord portable.trim =
    ["not Print and @laptop".toList, "ALL and screen".toList, "not all and (hover)".toList] := by decide +kernel
  rw [Registry.IsFaithful, groups]
  rintro g (_ | ⟨_, _ | ⟨_, _ | ⟨_, _ | _⟩⟩⟩) possible
  · have terms : Text.cut Text.andWord "not Print and @laptop".toList = ["not Print".toList, "@laptop".toList] := by
      decide +kernel
    rw [Registry.KeepsGroup, terms]
    rintro t (_ | ⟨_, _ | ⟨_, _ | _⟩⟩) d inverted watches
    · obtain ⟨rfl, -⟩ := Term.eq_of_watch watches
      exact .plain (by decide +kernel) ⟨by decide +kernel, by decide +kernel⟩
    · have replaced : Term.ofText laptopRegistry "@laptop".toList =
        .watch "(hover: hover) and (pointer: fine)".toList false := by decide +kernel
      obtain ⟨rfl, rfl⟩ := Term.watch.inj (replaced.symm.trans watches)
      exact keeps_laptop _ _
  · have terms : Text.cut Text.andWord "ALL and screen".toList = ["ALL".toList, "screen".toList] := by decide +kernel
    rw [Registry.KeepsGroup, terms]
    rintro t (_ | ⟨_, _ | ⟨_, _ | _⟩⟩) d inverted watches
    · have always : Term.ofText laptopRegistry "ALL".toList = .constant true := by decide +kernel
      exact absurd (always.symm.trans watches) nofun
    · obtain ⟨rfl, -⟩ := Term.eq_of_watch watches
      exact .plain (by decide +kernel) ⟨by decide +kernel, by decide +kernel⟩
  · exact absurd (by decide +kernel) possible

/-- What is left of the query holds on a terminal with a mouse, and not on one that is touched. -/
theorem holds_compile_text_portable :
    let w := Watcher.start {} laptopRegistry
    let mouse : Engine := { features := { mediaType := "tty".toList } }
    let touch : Engine := { features := { mediaType := "tty".toList, pointer := .coarse } }
    let c := (w.compile portable).1
    let c' := ((w.compile portable).2.compile c.text).1
    c.text = "not Print and (hover: hover) and (pointer: fine), screen".toList ∧
      c'.holds mouse.view = true ∧ c'.holds touch.view = false := by
  intro w mouse touch c c'
  have present : c.holds mouse.view = true := by decide +kernel
  have absent : c.holds touch.view = false := by decide +kernel
  have same := w.registry_compile portable
  refine ⟨by decide +kernel, ?_, ?_⟩
  · exact (holds_compile_text w (w.compile portable).2 (e := mouse) rfl same isFaithful_portable).trans present
  · exact (holds_compile_text w (w.compile portable).2 (e := touch) rfl same isFaithful_portable).trans absent

/-- Negated, the shortcut holds where there is no mouse, and its written form does not: there the `not` goes to hovering
alone. -/
theorem text_misread :
    let w := Watcher.start { pointer := .coarse } laptopRegistry
    let c := (w.compile "not @laptop".toList).1
    let c' := ((w.compile "not @laptop".toList).2.compile c.text).1
    w.engine.connected = true ∧ c.text = "not (hover: hover) and (pointer: fine)".toList ∧
      c.holds w.engine.view = true ∧ c'.holds w.engine.view = false := by
  decide +kernel

end MediaWatch
