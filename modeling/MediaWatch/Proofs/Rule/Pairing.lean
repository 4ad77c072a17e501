import Mathlib.Data.List.Infix
import MediaWatch.Proofs.Text.Pieces
import MediaWatch.Rule.RuleList

/-! # Values with a mask

Values with a mask of queries are another way to write a rule list: the one that puts each query behind its value, with
an arrow between them. No piece gets lost on the way, since what holds an arrow is not blank, and a value without arrows
ends at the first one.
-/

namespace MediaWatch

namespace Text

variable {c : Char} {p q s sep t : Text} {ts : List Text}

private theorem joined_eq_intercalate (sep : Text) (ts : List Text) : joined sep ts = sep.intercalate ts := by
  induction ts with
  | nil => rfl
  | cons t ts ih =>
    cases ts with
    | nil => exact List.intercalate_singleton.symm
    | cons u ts => rw [joined, ih, List.intercalate_cons_cons]

/-- Texts that are joined with a character which none of them has are the pieces of the whole. -/
theorem pieces_joined (some : ts ≠ []) (free : ∀ t ∈ ts, c ∉ t) : pieces c (joined [c] ts) = ts := by
  rw [pieces, joined_eq_intercalate, List.splitOn_intercalate c free some]

private theorem pieces_ne_nil (c : Char) (t : Text) : pieces c t ≠ [] := List.splitOn_ne_nil c t

/-- No piece has the character that stands between the pieces. -/
theorem not_mem_of_mem_pieces (mem : p ∈ pieces c t) : c ∉ p := by
  induction t generalizing p with
  | nil =>
    obtain rfl := List.mem_singleton.mp (show p ∈ [[]] from mem)
    exact List.not_mem_nil
  | cons d rest ih =>
    obtain ⟨first, others, split⟩ := List.exists_cons_of_ne_nil (pieces_ne_nil c rest)
    have inner : ∀ p ∈ first :: others, c ∉ p := fun p mem => ih (split ▸ mem)
    rw [pieces, List.splitOn_cons_eq_if_modifyHead] at mem
    rw [pieces] at split
    rw [split] at mem
    split at mem
    · rcases List.mem_cons.mp mem with rfl | mem
      · exact List.not_mem_nil
      · exact inner p mem
    · next other =>
      rcases List.mem_cons.mp mem with rfl | mem
      · refine fun mem => (List.mem_cons.mp mem).elim (fun same => ?_) (inner first List.mem_cons_self)
        exact other (beq_iff_eq.mpr same.symm)
      · exact inner p (List.mem_cons_of_mem _ mem)

/-- A text is not blank if some character of it is not. -/
theorem trim_ne_nil (mem : c ∈ t) (solid : isBlank c = false) : t.trim ≠ [] := by
  intro none
  obtain ⟨a, b, split, left, right, -⟩ := exists_trim t
  rw [none, List.nil_append] at split
  rw [split] at mem
  have blank : isBlank c := (List.mem_append.mp mem).elim (left c) (right c)
  exact Bool.false_ne_true (solid.symm.trans blank)

end Text

/-- A value without arrows ends where an arrow is put behind it. -/
theorem Rule.parts_arrow {value : Text} (free : ¬ ruleArrow <:+: value) (query : Text) :
    Rule.parts (value ++ (ruleArrow ++ query)) = (value, query) := by
  have first : Text.cutAt? ruleArrow (value ++ (ruleArrow ++ query)) = some (value, query) := by
    refine Text.cutAt?_append (by decide) fun q inhabited suffix => ?_
    by_contra found
    obtain ⟨rest, found⟩ := Option.ne_none_iff_exists'.mp found
    have split : '=' :: '>' :: rest = q ++ ('=' :: '>' :: query) := List.isPrefixOf?_eq_some_iff_append_eq.mp found
    match q, inhabited, split with
    | [c], _, split =>
      -- The arrow would have to begin with the last character of the value.
      have second : '>' = '=' := (List.cons.inj (List.cons.inj split).2).1
      exact absurd second (by decide)
    | c :: d :: q, _, split =>
      obtain ⟨rfl, later⟩ := List.cons.inj split
      obtain ⟨rfl, -⟩ := List.cons.inj later
      have inside : ruleArrow <+: '=' :: '>' :: q := ⟨q, rfl⟩
      exact free (inside.isInfix.trans suffix.isInfix)
  rw [Rule.parts, first, Option.getD_some]

/-! ## Compiling again -/

namespace Watcher

/-- Every condition that one watcher has compiled is known to the other. -/
def Recalls (v w : Watcher) : Prop := ∀ query c, w.cache.find? query = some c → v.cache.find? query = some c

variable {u v w : Watcher}

theorem Recalls.trans (later : u.Recalls v) (sooner : v.Recalls w) : u.Recalls w :=
  fun query c found => later query c (sooner query c found)

/-- The condition of a query is known from then on, and what was known before still is. -/
theorem recalls_query (w : Watcher) (query : Text) :
    (w.query query).2.Recalls w ∧ (w.query query).2.cache.find? query = some (w.query query).1 := by
  rw [Watcher.query]
  split
  · next c found => exact ⟨fun _ _ known => known, found⟩
  · next absent =>
    refine ⟨fun other c known => ?_, ?_⟩
    · have distinct : query ≠ other := by
        rintro rfl
        exact absurd (absent.symm.trans known) nofun
      exact (Fields.find?_insert ..).trans ((if_neg distinct).trans known)
    · exact (Fields.find?_insert ..).trans (if_pos rfl)

/-- A known condition is given again, and nothing changes. -/
theorem query_of_known {query : Text} {c : Condition} (known : v.cache.find? query = some c) :
    v.query query = (c, v) := by
  rw [Watcher.query, known]

end Watcher

namespace Rule

variable {α : Type} {read? : Text → Option α} {v w : Watcher}

private theorem recalls_ofParts (read? : Text → Option α) (w : Watcher) (parts : Text × Text) :
    (ofParts? read? w parts).2.Recalls w := by
  rw [ofParts?]
  split
  · exact fun _ _ known => known
  · split
    · exact fun _ _ known => known
    · exact (w.recalls_query parts.2.trim).1

theorem recalls_ofAllParts (read? : Text → Option α) (w : Watcher) (ps : List (Text × Text)) :
    (ofAllParts read? w ps).2.Recalls w := by
  induction ps generalizing w with
  | nil => exact fun _ _ known => known
  | cons p ps ih => exact (ih _).trans (recalls_ofParts read? w p)

/-- Who knows the condition of a rule makes the same rule again. -/
theorem ofParts_again {parts : Text × Text} (recalls : v.Recalls (ofParts? read? w parts).2) :
    ofParts? read? v parts = ((ofParts? read? w parts).1, v) := by
  revert recalls
  rw [ofParts?, ofParts?]
  split
  · exact fun _ => rfl
  · split
    · exact fun _ => rfl
    · intro recalls
      have known := recalls _ _ (w.recalls_query parts.2.trim).2
      simp only [Watcher.query_of_known known]

/-- Who knows the conditions of some rules makes the same rules again. -/
theorem ofAllParts_again {ps : List (Text × Text)} (recalls : v.Recalls (ofAllParts read? w ps).2) :
    ofAllParts read? v ps = ((ofAllParts read? w ps).1, v) := by
  induction ps generalizing w with
  | nil => rfl
  | cons p ps ih =>
    have later := recalls_ofAllParts read? (ofParts? read? w p).2 ps
    have first := ofParts_again (recalls.trans later)
    have rest := ih (w := (ofParts? read? w p).2) recalls
    simp only [ofAllParts, first, rest]

end Rule

namespace RuleList

variable {α : Type}

/-- Each query behind its value, with an arrow between them. -/
def pairs (values mask : Text) : List Text :=
  ((Text.pieces ruleBar values).zip (Text.pieces ruleBar mask)).map fun pair => pair.1 ++ (ruleArrow ++ pair.2)

/-- The rule list that says the same as values and a mask. -/
def paired (values mask : Text) : Text := Text.joined [ruleBar] (pairs values mask)

example : paired "a=||c".toList "x|y=>z".toList = "a==>x|=>y=>z".toList := by decide

/-- The segments of the rule list are the pairs, none of which is blank. -/
theorem segments_paired (values mask : Text) : segments (paired values mask) = pairs values mask := by
  have some : pairs values mask ≠ [] := by
    simp [pairs, List.zip_eq_nil_iff, Text.pieces_ne_nil]
  have free : ∀ t ∈ pairs values mask, ruleBar ∉ t := by
    intro t mem
    obtain ⟨⟨value, query⟩, zipped, rfl⟩ := List.mem_map.mp mem
    obtain ⟨left, right⟩ := List.of_mem_zip zipped
    have arrow : ruleBar ∉ ruleArrow := by decide
    simp [Text.not_mem_of_mem_pieces left, arrow, Text.not_mem_of_mem_pieces right]
  have visible : ∀ t ∈ pairs values mask, t.trim.isEmpty = false := by
    intro t mem
    obtain ⟨⟨value, query⟩, -, rfl⟩ := List.mem_map.mp mem
    have sign : '=' ∈ value ++ (ruleArrow ++ query) := by simp [ruleArrow]
    exact List.isEmpty_eq_false_iff.mpr (Text.trim_ne_nil sign (by decide))
  rw [segments, paired, Text.pieces_joined some free]
  refine List.filter_eq_self.mpr fun t mem => ?_
  rw [visible t mem]
  rfl

/-- Values without arrows and their queries are the parts of the rules. -/
theorem parts_paired (mask : Text) {values : Text}
    (free : ∀ value ∈ Text.pieces ruleBar values, ¬ ruleArrow <:+: value) :
    (segments (paired values mask)).map Rule.parts = (Text.pieces ruleBar values).zip (Text.pieces ruleBar mask) := by
  rw [segments_paired, pairs, List.map_map]
  refine (List.map_congr_left fun pair mem => ?_).trans (List.map_id _)
  exact Rule.parts_arrow (free pair.1 (List.of_mem_zip mem).1) pair.2

/-- Values and a mask make rules unless they have different numbers of pieces, which the fault then tells. If no value
holds an arrow, the rules are those of the rule list that puts each query behind its value; and whoever knows the
conditions that were compiled for them makes the same rules again. -/
theorem parseTuple_paired (read? : Text → Option α) (values mask : Text) (w : Watcher) :
    (∀ fault, parseTuple read? values mask w = .error fault ↔
      (Text.pieces ruleBar values).length ≠ (Text.pieces ruleBar mask).length ∧
        fault = .lengthMismatch (Text.pieces ruleBar values).length (Text.pieces ruleBar mask).length) ∧
      ((Text.pieces ruleBar values).length = (Text.pieces ruleBar mask).length →
        (∀ value ∈ Text.pieces ruleBar values, ¬ ruleArrow <:+: value) →
          ∃ l u, parseTuple read? values mask w = .ok (l, u) ∧ parse read? (paired values mask) w = (l, u) ∧
            ∀ v : Watcher, v.Recalls u → (parse read? (paired values mask) v).1.rules = l.rules) := by
  refine ⟨fun fault => ?_, fun even free => ?_⟩
  · rw [parseTuple]
    split
    · next even => simp [even]
    · next uneven => simp [uneven, eq_comm]
  · have parts := parts_paired mask free
    refine ⟨(parse read? (paired values mask) w).1, (parse read? (paired values mask) w).2, ?_, rfl,
      fun v recalls => ?_⟩
    · rw [parseTuple, if_pos even, parse, parts]
    · have again := Rule.ofAllParts_again (v := v) recalls
      rw [parse, again]
      rfl

def readVisible? (t : Text) : Option Text := if t.trim.isEmpty then none else some t.trim

/-- A value that ends like an arrow starts, one that is not read, a default, and a query with an arrow in it. -/
theorem parseTuple_paired_readVisible :
    let values := "a=|| b|c".toList
    let mask := ">x|print|\t|y=>z".toList
    let w := Watcher.start {} .standard
    (∀ fault, parseTuple readVisible? values mask w ≠ .error fault) ∧
      ∃ l u, parseTuple readVisible? values mask w = .ok (l, u) ∧
        l.rules.map (fun r => (r.payload, r.isDefault)) =
          [(some "b".toList, true), (some "a=".toList, false), (some "c".toList, false)] ∧
        (parse readVisible? (paired values mask) u).1.rules = l.rules := by
  intro values mask w
  have even : (Text.pieces ruleBar values).length = (Text.pieces ruleBar mask).length := by decide
  have free : ∀ value ∈ Text.pieces ruleBar values, ¬ ruleArrow <:+: value := by decide
  obtain ⟨faults, same⟩ := parseTuple_paired readVisible? values mask w
  obtain ⟨l, u, made, parsed, again⟩ := same even free
  refine ⟨fun fault refused => ((faults fault).mp refused).1 even, l, u, made, ?_, again u fun _ _ known => known⟩
  have rules : (parse readVisible? (paired values mask) w).1.rules.map (fun r => (r.payload, r.isDefault)) =
      [(some "b".toList, true), (some "a=".toList, false), (some "c".toList, false)] := by decide +kernel
  rw [← rules, parsed]

end RuleList

end MediaWatch
