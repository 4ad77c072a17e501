import MediaWatch.Proofs.Query.Canonical
import MediaWatch.Proofs.Rule.Pairing
import MediaWatch.Proofs.Shortcut.Priority
import MediaWatch.Rule.Basic

/-! # Conditions without bars

Rules are divided by bars. Ranges and densities are written without any, so that a bar comes into a condition only by
its query, by the environment or by a resolver.
-/

namespace MediaWatch

/-! ## Written numbers -/

namespace Decimal

variable {c : Char} {x : Float}

private theorem isDigit_ofUnits {units : Nat} {g : Int} (mem : c ∈ (Digits.ofUnits units g).digits) : c.isDigit := by
  rw [Digits.ofUnits, List.mem_reverse] at mem
  have among := (List.dropWhile_suffix _).mem mem
  exact Media.isDigit_of_mem_ofNat (List.mem_reverse.mp among)

/-- The fewest digits are digits. -/
theorem isDigit_shortest {tie : Tie} (mem : c ∈ (Decimal.shortest x tie).digits) : c.isDigit := by
  rw [Decimal.shortest, Interval.shortest] at mem
  dsimp only at mem
  generalize Interval.ofBits x.toBits = i at mem
  cases found : (List.range 17).findSome? fun (n : Nat) =>
      ((i.onGrid (i.places - (n + 1 : Nat))).nearest? tie).map (Digits.ofUnits · (i.places - (n + 1 : Nat))) with
  | none =>
    rw [found] at mem
    exact isDigit_ofUnits mem
  | some d =>
    rw [found] at mem
    obtain ⟨n, -, near⟩ := List.exists_of_findSome?_eq_some found
    obtain ⟨units, -, rfl⟩ := Option.map_eq_some_iff.mp near
    exact isDigit_ofUnits mem

/-- A number without an exponent is written with digits and a point. -/
theorem mem_positionalText {style : Style} {d : Digits} (digits : ∀ c ∈ d.digits, c.isDigit)
    (mem : c ∈ style.positionalText d) : c.isDigit ∨ c = '.' := by
  have zeros : ∀ n, c ∈ List.replicate n '0' → c.isDigit := fun n mem => (List.mem_replicate.mp mem).2 ▸ rfl
  have front : ∀ n, c ∈ d.digits.take n → c.isDigit := fun n mem => digits c (List.mem_of_mem_take mem)
  have pointed : c ∈ "0.".toList ∨ c ∈ ".0".toList → c.isDigit ∨ c = '.' := by
    rintro (mem | mem) <;> rcases List.mem_pair.mp mem with rfl | rfl <;> decide
  rw [Style.positionalText] at mem
  dsimp only at mem
  split at mem
  · rcases List.mem_append.mp mem with mem | mem
    · exact (List.mem_append.mp mem).elim (fun mem => pointed (.inl mem)) fun mem => .inl (zeros _ mem)
    · exact .inl (digits c mem)
  split at mem
  · rcases List.mem_append.mp mem with mem | mem
    · exact .inl ((List.mem_append.mp mem).elim (front _) (zeros _))
    · split at mem
      · exact pointed (.inr mem)
      · contradiction
  · rcases List.mem_append.mp mem with mem | mem
    · exact .inl (front _ mem)
    · exact (List.mem_cons.mp mem).elim .inr fun mem => .inl (digits c (List.mem_of_mem_drop mem))

/-- A number without an exponent is written with digits, a point and a sign; infinity has a name, and so has what is no
number. -/
theorem mem_render (mem : c ∈ Style.plain.render x) : c.isDigit ∨ c ∈ "-.Nainf".toList := by
  have magnitude : c ∈ Style.plain.magnitude x → c.isDigit ∨ c ∈ "-.Nainf".toList := by
    intro mem
    rw [Style.magnitude] at mem
    split at mem
    · exact .inr ((by decide : "inf".toList ⊆ "-.Nainf".toList) mem)
    split at mem
    · rw [List.mem_singleton.mp mem]
      exact .inl rfl
    · exact (mem_positionalText (fun c => isDigit_shortest) mem).imp_right fun point => by simp [point]
  rw [Style.render] at mem
  split at mem
  · exact .inr ((by decide : "NaN".toList ⊆ "-.Nainf".toList) mem)
  split at mem
  · refine (List.mem_cons.mp mem).elim (fun sign => .inr ?_) magnitude
    simp [sign]
  · exact magnitude mem

end Decimal

/-! ## Shortcuts without bars -/

/-- No shortcut stands for a text with a bar. -/
def Registry.IsBarless (r : Registry) : Prop :=
  ∀ token shortcut, r.resolve? token = some shortcut → ruleBar ∉ shortcut.term

namespace Registry

variable {r : Registry} {token : Text} {s : Shortcut}

private theorem not_mem_ofNat (n : Nat) : ruleBar ∉ Text.ofNat n := fun mem =>
  absurd (Media.isDigit_of_mem_ofNat mem) (by decide)

private theorem barless_query (side : Breakpoint.Side) (range : Breakpoint) : ruleBar ∉ side.query range := by
  have bound {start ending : Text} {n : Nat} (front : ruleBar ∉ start) (back : ruleBar ∉ ending) :
      ruleBar ∉ start ++ Text.ofNat n ++ ending := fun mem =>
    (List.mem_append.mp mem).elim (fun mem => (List.mem_append.mp mem).elim front (not_mem_ofNat n)) back
  have least : ruleBar ∉ range.minQuery := bound (by decide) (by decide)
  have most : ruleBar ∉ range.maxQuery := bound (by decide) (by decide)
  cases side with
  | inside =>
    exact fun mem => (List.mem_append.mp mem).elim
      (fun mem => (List.mem_append.mp mem).elim least (by decide)) most
  | wider => exact least
  | narrower => exact most

private theorem barless_density {d : Density} (resolved : d.resolve? token = some s) : ruleBar ∉ s.term := by
  rw [Density.resolve?] at resolved
  split at resolved
  · contradiction
  split at resolved
  · contradiction
  split at resolved
  · obtain rfl := Option.some.inj resolved
    decide
  · next amount _ _ _ =>
    obtain rfl := Option.some.inj resolved
    have number : ruleBar ∉ Decimal.Style.plain.render amount := fun mem =>
      (Decimal.mem_render mem).elim (by decide) (by decide)
    exact fun mem => (List.mem_append.mp mem).elim
      (fun mem => (List.mem_append.mp mem).elim (by decide) number) (by decide)

/-- Ranges and densities are written without bars, so that none come in but by the environment and by resolvers. -/
theorem isBarless_of (environment : ∀ entry ∈ r.environment.table, ruleBar ∉ entry.2.term)
    (custom : ∀ resolver ∈ r.custom, ∀ token s, resolver.resolve token = some s → ruleBar ∉ s.term) : r.IsBarless := by
  intro token s resolved
  obtain ⟨resolver, among, answered⟩ := List.exists_of_findSome?_eq_some resolved
  rcases List.mem_append.mp among with mem | mem
  · exact custom resolver mem token s answered
  simp only [List.mem_cons, List.not_mem_nil, or_false] at mem
  rcases mem with rfl | rfl | rfl
  · exact environment _ (Fields.mem_of_find? answered)
  · obtain ⟨side, letters, range, -, -, rfl⟩ := Breakpoints.resolve?_eq_some.mp answered
    exact barless_query side range
  · exact barless_density answered

theorem isBarless_standard : standard.IsBarless :=
  isBarless_of (by decide +kernel) (List.forall_mem_nil _)

end Registry

/-! ## Compiled without bars -/

/-- No shortcut stands for a text with a bar, nor did one when the conditions were compiled that are still known. -/
structure Watcher.IsBarless (w : Watcher) : Prop where
  registry : w.registry.IsBarless
  cache : ∀ query c, w.cache.find? query = some c → ∃ (r : Registry) (next : NodeId),
    r.IsBarless ∧ c = (Condition.compile r next query).1

variable {c : Char} {r : Registry} {s t query : Text} {ts : List Text} {j : Junction}

private theorem Junction.mem_write (mem : c ∈ j.write ts) :
    c ∈ j.decisive ∨ c ∈ j.neutral ∨ c ∈ j.separator ∨ ∃ t ∈ ts, c ∈ t := by
  rw [write] at mem
  split at mem
  · exact .inl mem
  split at mem
  · exact .inr (.inl mem)
  · rcases Text.mem_joined mem with mem | ⟨t, among, mem⟩
    · exact .inr (.inr (.inl mem))
    · exact .inr (.inr (.inr ⟨t, List.mem_of_mem_filter among, mem⟩))

private theorem Junction.closed_write (closed : ∀ t ∈ ts, Text.Closed t) : Text.Closed (j.write ts) := by
  rw [write]
  split
  · cases j <;> decide
  split
  · cases j <;> decide
  · next some => exact Text.closed_joined some fun t mem => closed t (List.mem_of_mem_filter mem)

namespace Term

private theorem stripNot_suffix (t : Text) : (stripNot t).2 <:+ t := by
  by_cases negates : ∃ rest, Negates t rest
  · obtain ⟨rest, negates⟩ := negates
    rw [stripNot_of_negates negates]
    obtain ⟨x, b, rfl, -⟩ := negates
    exact ⟨x ++ b, List.append_assoc x b rest⟩
  · rw [stripNot_of_not_negates (not_exists.mp negates)]

private theorem closed_written (r : Registry) (t : Text) : Text.Closed (ofText r t).text := by
  cases eq : ofText r t with
  | constant b => cases b <;> decide
  | watch d inverted => exact closed_text (closed_of_watch eq) inverted

private theorem barless_written (barless : r.IsBarless) (free : ruleBar ∉ t) : ruleBar ∉ (ofText r t).text := by
  have stripped {u : Text} (free : ruleBar ∉ u) : ruleBar ∉ (stripNot u.trim).2 := fun mem =>
    free (Text.mem_of_mem_trim ((stripNot_suffix _).mem mem))
  have replaced : ruleBar ∉ r.preprocess (stripNot t.trim).2 := by
    rw [Registry.preprocess]
    split
    · exact stripped free
    split
    · next resolved => exact barless _ _ resolved
    · exact stripped free
  cases eq : ofText r t with
  | constant b => cases b <;> decide
  | watch d inverted =>
    obtain ⟨rfl, -, -⟩ := eq_of_watch eq
    rw [text]
    split
    · exact fun mem => (List.mem_append.mp mem).elim (by decide) (stripped replaced)
    · exact stripped replaced

end Term

/-- What is compiled from a query without bars is written without bars, and neither starts nor ends with a blank. -/
theorem Condition.barless_compile (barless : r.IsBarless) (next : NodeId) (free : ruleBar ∉ query) :
    Text.Closed (compile r next query).1.text ∧ ruleBar ∉ (compile r next query).1.text := by
  by_cases blank : query.trim = []
  · have always : (compile r next query).1 = .always := by simp [compile, blank]
    rw [always]
    decide
  have terms : ∀ ts ∈ r.groups query.trim, ∀ t ∈ ts, Text.Closed t.text ∧ ruleBar ∉ t.text := by
    intro ts group t term
    obtain ⟨g, piece, rfl⟩ := List.mem_map.mp group
    obtain ⟨t, part, rfl⟩ := List.mem_map.mp term
    obtain ⟨u, v, split, -⟩ := Text.standsIn_of_mem_cut Text.finds_commaOrWord piece
    obtain ⟨x, y, rfl, -⟩ := Text.standsIn_of_mem_cut Text.finds_andWord part
    refine ⟨Term.closed_written r t, Term.barless_written barless fun mem => free (Text.mem_of_mem_trim ?_)⟩
    rw [split]
    simp [mem]
  rw [text_compiled r next blank]
  constructor
  · refine Junction.closed_write fun g group => ?_
    obtain ⟨ts, mem, rfl⟩ := List.mem_map.mp group
    refine Junction.closed_write fun u written => ?_
    obtain ⟨t, term, rfl⟩ := List.mem_map.mp written
    exact (terms ts mem t term).1
  · intro bar
    rcases Junction.mem_write bar with mem | mem | mem | ⟨g, group, bar⟩
    iterate 3 exact absurd mem (by decide)
    obtain ⟨ts, among, rfl⟩ := List.mem_map.mp group
    rcases Junction.mem_write bar with mem | mem | mem | ⟨u, written, bar⟩
    iterate 3 exact absurd mem (by decide)
    obtain ⟨t, term, rfl⟩ := List.mem_map.mp written
    exact (terms ts among t term).2 bar

namespace Watcher

variable {w : Watcher}

/-- Asking for conditions keeps bars out of what is known, and so does a condition that is asked for. -/
theorem IsBarless.asked (barless : w.IsBarless) (query : Text) :
    (w.query query).2.IsBarless ∧
      (ruleBar ∉ query → Text.Closed (w.query query).1.text ∧ ruleBar ∉ (w.query query).1.text) := by
  have known := (w.recalls_query query).2
  have kept : (w.query query).2.IsBarless := by
    rw [Watcher.query]
    split
    · exact barless
    · refine ⟨barless.registry, fun other c found => ?_⟩
      change Fields.find? other (Fields.insert query _ _) = some c at found
      rw [Fields.find?_insert] at found
      split at found
      · next same =>
        obtain rfl := same
        exact ⟨w.registry, _, barless.registry, (Option.some.inj found).symm⟩
      · exact barless.cache other c found
  refine ⟨kept, fun free => ?_⟩
  obtain ⟨r, next, barless, compiled⟩ := kept.cache query _ known
  rw [compiled]
  exact Condition.barless_compile barless next free

end Watcher

end MediaWatch
