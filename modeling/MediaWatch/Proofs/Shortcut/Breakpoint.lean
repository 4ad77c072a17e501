import MediaWatch.Proofs.Decimal.Whole
import MediaWatch.Proofs.Media.Feature
import MediaWatch.Shortcut.Breakpoint

/-! # Breakpoints mean their ranges

The descriptor of a bound is written from a whole number and read again when it is evaluated. Both ways agree: a range
is met exactly by the widths between its two bounds, whatever they are.
-/

namespace MediaWatch

variable {name : Text} {n : Nat}

/-! ## Names -/

namespace Text

variable {c : Char} {t : Text}

private theorem toNat_toLower_lt (ascii : c.toNat < 0x80) : c.toLower.toNat < 0x80 := by
  by_cases upper : c.val ≥ 'A'.val ∧ c.val ≤ 'Z'.val
  · have most : c.toNat ≤ 90 := upper.2
    have shifted := toNat_toLower upper
    omega
  · have same : c.toLower = c := dif_neg upper
    rwa [same]

theorem toNat_lt_of_isAlphanum (alphanumeric : c.isAlphanum) : c.toNat < 0x80 := by
  change (decide (65 ≤ c.toNat ∧ c.toNat ≤ 90) || decide (97 ≤ c.toNat) && decide (c.toNat ≤ 122) ||
    decide (48 ≤ c.toNat) && decide (c.toNat ≤ 57)) = true at alphanumeric
  simp only [Bool.or_eq_true, Bool.and_eq_true, decide_eq_true_eq] at alphanumeric
  omega

/-- In ASCII, lower case is a matter of the letters alone. -/
theorem lowerFrom_ascii (ascii : ∀ c ∈ t, c.toNat < 0x80) (before : Text) : lowerFrom before t = lowerAscii t := by
  induction t generalizing before with
  | nil => rfl
  | cons c rest ih =>
    obtain ⟨first, others⟩ := List.forall_mem_cons.mp ascii
    have plain : c ≠ '\u03a3' := by
      rintro rfl
      exact absurd first (by decide)
    rw [lowerFrom, if_neg plain, lowerChar, if_pos first, ih others]
    rfl

theorem lower_lowerAscii (ascii : ∀ c ∈ t, c.toNat < 0x80) : (lowerAscii t).lower = lowerAscii t := by
  have small : ∀ c ∈ lowerAscii t, c.toNat < 0x80 := by
    intro c mem
    obtain ⟨d, among, rfl⟩ := List.mem_map.mp mem
    exact toNat_toLower_lt (ascii d among)
  rw [lower, lowerFrom_ascii small, lowerAscii_lowerAscii]

end Text

namespace Breakpoints

/-- Breakpoints that come from none at all, or from the usual ones, by adding and removing. -/
inductive Made : Breakpoints → Prop where
  | empty : Made ⟨[]⟩
  | standard : Made standard
  | add {b added : Breakpoints} {name : Text} {range : Breakpoint} (made : Made b)
      (done : b.add name range = .ok added) : Made added
  | remove {b : Breakpoints} (made : Made b) (name : Text) : Made (b.remove name)

/-- Whatever is found is found under a name that a token can have. -/
theorem Made.isName {b : Breakpoints} (made : Made b) {range : Breakpoint} (found : b.table.find? name = some range) :
    isName name := by
  induction made with
  | empty => contradiction
  | standard =>
    have names : ∀ entry ∈ Breakpoints.standard.table, Breakpoints.isName entry.1 := by decide +kernel
    exact names _ (Fields.mem_of_find? found)
  | @add b added new range made done ih =>
    rw [Breakpoints.add] at done
    split at done
    · next named =>
      cases done
      rw [Fields.find?_insert] at found
      split at found
      · next same => exact same ▸ named
      · exact ih found
    · contradiction
  | remove made other ih =>
    rw [Breakpoints.remove, Fields.find?_erase] at found
    split at found
    · contradiction
    · exact ih found

theorem isNameChar_iff {c : Char} : isNameChar c ↔ 97 ≤ c.toNat ∧ c.toNat ≤ 122 := by
  rw [isNameChar, Bool.and_eq_true, decide_eq_true_eq, decide_eq_true_eq]
  exact Iff.rfl

end Breakpoints

private theorem Text.lowerFrom_of_isNameChar (letters : name.all Breakpoints.isNameChar) (before : Text) :
    lowerFrom before name = name := by
  have range : ∀ c ∈ name, 97 ≤ c.toNat ∧ c.toNat ≤ 122 := fun c mem =>
    Breakpoints.isNameChar_iff.mp (List.all_eq_true.mp letters c mem)
  have small : ∀ c ∈ name, c.toLower = c := by
    refine fun c mem => dif_neg fun upper => ?_
    have least := (range c mem).1
    have most : c.toNat ≤ 90 := upper.2
    omega
  rw [lowerFrom_ascii (fun c mem => Nat.lt_of_le_of_lt (range c mem).2 (by decide)), lowerAscii,
    List.map_congr_left small, List.map_id']

/-- What stands before an ending is found in front of it. -/
theorem Text.before?_append (t ending : Text) : before? ending (t ++ ending) = some t := by
  rw [before?, List.reverse_append, List.isPrefixOf?_eq_some_iff_append_eq.mpr rfl, Option.map_some,
    List.reverse_reverse]

namespace Media

/-! ## The text of a bound -/

theorem isDigit_of_mem_ofNat {c : Char} (mem : c ∈ Text.ofNat n) : c.isDigit :=
  List.all_eq_true.mp (Decimal.all_isDigit_ofNat n) c mem

private theorem solid_of_mem_ofNat : ∀ c ∈ Text.ofNat n, Text.isBlank c = false ∧ c ≠ ',' := fun c mem =>
  Text.solid_of_isAlphanum (by rw [Char.isAlphanum, isDigit_of_mem_ofNat mem, Bool.or_true])

private theorem closed_ofNat (n : Nat) : Text.Closed (Text.ofNat n) where
  some := Nat.toDigits_ne_nil
  starts c head := (solid_of_mem_ofNat c (List.mem_of_mem_head? head)).1
  ends c last := (solid_of_mem_ofNat c (List.mem_of_mem_getLast? last)).1

def pixels (n : Nat) : Text := Text.ofNat n ++ "px".toList

private theorem closed_pixels (n : Nat) : Text.Closed (pixels n) := by
  refine ⟨List.append_ne_nil_of_left_ne_nil (closed_ofNat n).some _, fun c head => ?_, ?_⟩
  · rw [pixels, List.head?_append_of_ne_nil _ (closed_ofNat n).some] at head
    exact (closed_ofNat n).starts c head
  · rw [pixels, List.getLast?_append_of_ne_nil _ (by decide)]
    rintro c ⟨⟩
    decide

private theorem lowerAscii_pixels (n : Nat) : Text.lowerAscii (pixels n) = pixels n := by
  have digits := Decimal.lowerAscii_of_isDigit (Decimal.all_isDigit_ofNat n)
  rw [Text.lowerAscii] at digits ⊢
  rw [pixels, List.map_append, digits]
  rfl

/-- A whole number of pixels is read as the number itself. -/
theorem length?_pixels (small : n < 2 ^ 53) : length? (pixels n) = some (.ofModel (.ofNat n)) := by
  rw [length?, Text.trim_closed (closed_pixels n), lowerAscii_pixels, withUnit?, pixels, Text.before?_append]
  simp only [number?, Text.trim_closed (closed_ofNat n), Decimal.read?_ofNat small]
  rw [Option.filter_some, if_pos (Decimal.isFinite_ofNat small)]
  rfl

/-- The name of the width, with what its bound is written as. -/
def Bound.widthName : Bound → Text
  | least => "min-width".toList
  | most => "max-width".toList
  | exact => "width".toList

variable (bound : Bound) (n : Nat)

def Bound.widthInner : Text := bound.widthName ++ ": ".toList ++ pixels n

def Bound.widthText : Text := '(' :: (bound.widthInner n ++ [')'])

private theorem widthText_eq : bound.widthText n = featureText bound.widthName (pixels n) := by
  rw [Bound.widthText, Bound.widthInner, featureText, List.append_assoc]

private theorem isPlainText_widthName : IsPlainText bound.widthName := by
  cases bound <;> exact List.all_eq_true.mp (by decide)

private theorem isPlainText_pixels : IsPlainText (pixels n) := by
  refine List.forall_mem_append.mpr ⟨fun c mem => ?_, List.all_eq_true.mp (by decide)⟩
  rw [isTypeChar, Char.isAlphanum, isDigit_of_mem_ofNat mem, Bool.or_true]
  rfl

private theorem lowerAscii_widthText : Text.lowerAscii (bound.widthText n) = bound.widthText n := by
  have small : Text.lowerAscii bound.widthName = bound.widthName := by cases bound <;> rfl
  rw [widthText_eq, lowerAscii_featureText, small, lowerAscii_pixels]

/-- A bound on the width is read as the feature with its value. -/
theorem ofText_widthText : Part.ofText (bound.widthText n) = .feature bound.widthName (some (pixels n)) := by
  rw [widthText_eq, ofText_featureText (isPlainText_widthName bound) (isPlainText_pixels n), if_neg]
  cases bound <;> decide

/-- Nothing in a bound on the width divides a descriptor. -/
theorem isFeature_widthText : IsFeature (bound.widthText n) := by
  rw [widthText_eq]
  refine isFeature_featureText ?_ (isPlainText_widthName bound) (isPlainText_pixels n)
  cases bound <;> decide

def Bound.widthPart : PartText := ⟨bound.widthText n, .inr (isFeature_widthText bound n)⟩

variable {n}

/-- A bound on the width is met by the widths on its side of the number. -/
theorem holds_widthPart (small : n < 2 ^ 53) (f : Features) :
    (Part.ofText (Text.lowerAscii (bound.widthPart n).text)).holds f =
      match bound with
      | .least => decide (Float.ofModel (.ofNat n) ≤ f.width)
      | .most => decide (f.width ≤ Float.ofModel (.ofNat n))
      | .exact => decide ((f.width - Float.ofModel (.ofNat n)).abs < tolerance) := by
  have feature : featureHolds f bound.widthName (some (pixels n)) = bound.admits f.width (some (pixels n)) length? := by
    cases bound <;> rfl
  rw [Bound.widthPart, lowerAscii_widthText, ofText_widthText, Part.holds, feature]
  cases bound <;> simp only [Bound.admits, length?_pixels small]

private theorem satisfy_widthText (f : Features) :
    f.satisfy (bound.widthText n) = (Part.ofText (Text.lowerAscii (bound.widthPart n).text)).holds f := by
  have alone := satisfy_parts f ⟨bound.widthPart n, []⟩ (List.forall_mem_nil _)
  rw [Woven.write, List.flatMap_nil, List.append_nil] at alone
  exact alone.trans (Bool.and_true _)

end Media

open Media

/-! ## Ranges -/

namespace Breakpoint

variable (range : Breakpoint)

private theorem minQuery_eq : range.minQuery = Bound.least.widthText range.min.toNat := by
  have closing : pixels range.min.toNat ++ [')'] = Text.ofNat range.min.toNat ++ "px)".toList := List.append_assoc _ _ _
  rw [Bound.widthText, Bound.widthInner, List.append_assoc, closing]
  exact List.append_assoc _ _ _

private theorem maxQuery_eq : range.maxQuery = Bound.most.widthText range.max.toNat := by
  have closing : pixels range.max.toNat ++ [')'] = Text.ofNat range.max.toNat ++ "px)".toList := List.append_assoc _ _ _
  rw [Bound.widthText, Bound.widthInner, List.append_assoc, closing]
  exact List.append_assoc _ _ _

private theorem holds_least (f : Features) :
    (Part.ofText (Text.lowerAscii (Bound.least.widthPart range.min.toNat).text)).holds f =
      decide (range.min.toFloat ≤ f.width) :=
  holds_widthPart .least (range.min.toNat_lt.trans (by decide)) f

private theorem holds_most (f : Features) :
    (Part.ofText (Text.lowerAscii (Bound.most.widthPart range.max.toNat).text)).holds f =
      decide (f.width ≤ range.max.toFloat) :=
  holds_widthPart .most (range.max.toNat_lt.trans (by decide)) f

/-- The lower bound is met from there up. -/
theorem satisfy_minQuery (f : Features) : f.satisfy range.minQuery = decide (range.min.toFloat ≤ f.width) := by
  rw [minQuery_eq, satisfy_widthText, holds_least]

/-- The upper bound is met up to there. -/
theorem satisfy_maxQuery (f : Features) : f.satisfy range.maxQuery = decide (f.width ≤ range.max.toFloat) := by
  rw [maxQuery_eq, satisfy_widthText, holds_most]

/-- The range is met where both bounds are. -/
theorem satisfy_rangeQuery (f : Features) :
    f.satisfy range.rangeQuery = (f.satisfy range.minQuery && f.satisfy range.maxQuery) := by
  let least := Bound.least.widthPart range.min.toNat
  let most := Bound.most.widthPart range.max.toNat
  have between : ∀ s ∈ [" and ".toList], Text.IsSpaced "and".toList s := by
    rintro s (_ | ⟨_, _ | _⟩)
    exact ⟨" ".toList, "and".toList, " ".toList, rfl, by decide, List.all_eq_true.mp (by decide), by decide,
      by decide, List.all_eq_true.mp (by decide)⟩
  have both := satisfy_parts f ⟨least, [(" and ".toList, most)]⟩ between
  have written : range.rangeQuery = (Woven.mk least [(" and ".toList, most)]).write PartText.text := by
    rw [rangeQuery, minQuery_eq, maxQuery_eq, Woven.write_cons, Woven.write, List.flatMap_nil, List.append_nil,
      List.append_assoc]
    rfl
  rw [written, both, satisfy_minQuery, satisfy_maxQuery, ← holds_least, ← holds_most]
  exact congrArg _ (Bool.and_true _)

end Breakpoint

/-! ## What is no number -/

private theorem compare_of_isNaN {a b : Float.Model.UnpackedFloat} (nan : b.isNaN) :
    a.compare b = none ∧ b.compare a = none := by
  cases b with
  | notANumber => cases a <;> exact ⟨rfl, rfl⟩
  | infinity | zero | finite => contradiction

/-- What is no number is on no side of any bound. -/
theorem unordered_of_isNaN {x y : Float} (nan : x.isNaN) : ¬ y ≤ x ∧ ¬ x ≤ y := by
  obtain ⟨below, above⟩ := compare_of_isNaN (a := y.toModel.unpack) (b := x.toModel.unpack) nan
  constructor
  · intro le
    have ordered : y.toModel.unpack.le x.toModel.unpack = true := of_decide_eq_true le
    rw [Float.Model.UnpackedFloat.le, below] at ordered
    contradiction
  · intro le
    have ordered : x.toModel.unpack.le y.toModel.unpack = true := of_decide_eq_true le
    rw [Float.Model.UnpackedFloat.le, above] at ordered
    contradiction

/-! ## Tokens of breakpoints -/

/-- The sides of a range. -/
inductive Breakpoint.Side where
  | inside
  | wider
  | narrower

namespace Breakpoint.Side

/-- What stands in front of the name for a side. -/
def sign : Side → Text
  | inside => []
  | wider => ['+']
  | narrower => ['-']

def query : Side → Breakpoint → Text
  | inside => rangeQuery
  | wider => minQuery
  | narrower => maxQuery

/-- A token is a side's sign and then letters. -/
def Names (side : Side) (token letters : Text) : Prop := Breakpoints.isName letters ∧ token = side.sign ++ letters

end Breakpoint.Side

namespace Breakpoints

variable {b : Breakpoints} {side : Breakpoint.Side} {token letters : Text}

private theorem get?_of_isName (named : isName letters) : b.get? letters = b.table.find? letters := by
  rw [isName, Bool.and_eq_true] at named
  rw [get?, Text.lower, Text.lowerFrom_of_isNameChar named.2]

/-- A token of a side stands for that side of the range under its letters. -/
theorem resolve?_of_names (names : side.Names token letters) :
    b.resolve? token = (b.table.find? letters).map fun range => .descriptor (side.query range) := by
  obtain ⟨named, rfl⟩ := names
  rw [← get?_of_isName named]
  cases side with
  | wider => exact if_pos named
  | narrower => exact if_pos named
  | inside =>
    have unsigned (sign : Char) (other : isNameChar sign = false) (rest : Text) : letters ≠ sign :: rest := by
      rintro rfl
      simp [isName, other] at named
    rw [Breakpoint.Side.sign, List.nil_append, resolve?]
    · exact if_pos named
    · exact unsigned '+' (by decide)
    · exact unsigned '-' (by decide)

/-- Only a token of a side stands for anything. -/
theorem exists_names {s : Shortcut} (resolved : b.resolve? token = some s) :
    ∃ (side : Breakpoint.Side) (letters : Text), side.Names token letters := by
  have named (name : Text) (query : Breakpoint → Text)
      (answer :
        (if isName name then (b.get? name).map fun range => Shortcut.descriptor (query range) else none) = some s) :
      isName name := by
    by_contra other
    rw [if_neg other] at answer
    contradiction
  by_cases plus : ∃ name, token = '+' :: name
  · obtain ⟨name, rfl⟩ := plus
    exact ⟨.wider, name, named _ _ resolved, rfl⟩
  by_cases minus : ∃ name, token = '-' :: name
  · obtain ⟨name, rfl⟩ := minus
    exact ⟨.narrower, name, named _ _ resolved, rfl⟩
  · rw [resolve?] at resolved
    · exact ⟨.inside, token, named _ _ resolved, rfl⟩
    · exact fun name same => plus ⟨name, same⟩
    · exact fun name same => minus ⟨name, same⟩

theorem resolve?_eq_some {s : Shortcut} : b.resolve? token = some s ↔
    ∃ side letters range, Breakpoint.Side.Names side token letters ∧ b.table.find? letters = some range ∧
      s = .descriptor (side.query range) := by
  constructor
  · intro resolved
    obtain ⟨side, letters, names⟩ := exists_names resolved
    rw [resolve?_of_names names] at resolved
    obtain ⟨range, found, rfl⟩ := Option.map_eq_some_iff.mp resolved
    exact ⟨side, letters, range, names, found, rfl⟩
  · rintro ⟨side, letters, range, names, found, rfl⟩
    rw [resolve?_of_names names, found, Option.map_some]

theorem resolve?_eq_none : b.resolve? token = none ↔
    ∀ (side : Breakpoint.Side) (letters : Text), side.Names token letters → b.table.find? letters = none := by
  constructor
  · intro none side letters names
    rwa [resolve?_of_names names, Option.map_eq_none_iff] at none
  · intro unknown
    cases resolved : b.resolve? token with
    | none => rfl
    | some s =>
      obtain ⟨side, letters, names⟩ := exists_names resolved
      rw [resolve?_of_names names, unknown side letters names] at resolved
      contradiction

/-- A name, with a plus, with a minus or by itself, stands for the three sides of its range. -/
theorem resolve?_of_get? {b : Breakpoints} (made : b.Made) {range : Breakpoint}
    (registered : b.get? name = some range) :
    b.resolve? ('+' :: name.lower) = some (.descriptor range.minQuery) ∧
      b.resolve? ('-' :: name.lower) = some (.descriptor range.maxQuery) ∧
      b.resolve? name.lower = some (.descriptor range.rangeQuery) := by
  have stands (side : Breakpoint.Side) : b.resolve? (side.sign ++ name.lower) = some (.descriptor (side.query range)) :=
    resolve?_eq_some.mpr ⟨side, name.lower, range, ⟨made.isName registered, rfl⟩, registered, rfl⟩
  exact ⟨stands .wider, stands .narrower, stands .inside⟩

/-- A registered range is met by the widths from its lower bound up, by those up to its upper bound, or by those in
between, as its name is written with a plus, with a minus or by itself. -/
theorem resolved_range {b : Breakpoints} (made : b.Made) {range : Breakpoint} (registered : b.get? name = some range) :
    ∃ wider narrower inside,
      b.resolve? ('+' :: name.lower) = some (.descriptor wider) ∧
      b.resolve? ('-' :: name.lower) = some (.descriptor narrower) ∧
      b.resolve? name.lower = some (.descriptor inside) ∧
      ∀ f : Features,
        f.satisfy wider = decide (range.min.toFloat ≤ f.width) ∧
        f.satisfy narrower = decide (f.width ≤ range.max.toFloat) ∧
        f.satisfy inside = (f.satisfy wider && f.satisfy narrower) ∧
        (f.width.isNaN → f.satisfy wider = false ∧ f.satisfy narrower = false ∧ f.satisfy inside = false) := by
  obtain ⟨plus, minus, plain⟩ := resolve?_of_get? made registered
  refine ⟨range.minQuery, range.maxQuery, range.rangeQuery, plus, minus, plain, fun f => ?_⟩
  rw [range.satisfy_rangeQuery, range.satisfy_minQuery, range.satisfy_maxQuery]
  refine ⟨rfl, rfl, rfl, fun nan => ?_⟩
  rw [decide_eq_false (unordered_of_isNaN nan).1, decide_eq_false (unordered_of_isNaN nan).2]
  exact ⟨rfl, rfl, rfl⟩

/-- A range whose bounds are the wrong way round has no widths inside. -/
def reversed : Breakpoints := ⟨standard.table.insert "md".toList ⟨1200, 900⟩⟩

theorem resolved_range_reversed :
    reversed.get? "MD".toList = some ⟨1200, 900⟩ ∧
      ∃ inside, reversed.resolve? "md".toList = some (.descriptor inside) ∧
        ∀ f : Features, f.satisfy inside =
          (decide ((1200 : UInt32).toFloat ≤ f.width) && decide (f.width ≤ (900 : UInt32).toFloat)) := by
  have registered : reversed.get? "MD".toList = some ⟨1200, 900⟩ := by decide +kernel
  have added : standard.add "Md".toList ⟨1200, 900⟩ = .ok reversed := by rfl
  obtain ⟨wider, narrower, inside, plus, minus, plain, means⟩ := resolved_range (.add .standard added) registered
  refine ⟨registered, inside, plain, fun f => ?_⟩
  obtain ⟨least, most, both, -⟩ := means f
  rw [both, least, most]

end Breakpoints

end MediaWatch
