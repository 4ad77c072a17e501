import MediaWatch.Proofs.Shortcut.Breakpoint
import MediaWatch.Session.Play

/-! # What can name a breakpoint

A name is checked after it is brought into lower case, and there is one character outside ASCII of which lower case
makes a Latin letter: the Kelvin sign. So a name is accepted if it is made of Latin letters and Kelvin signs, and
names that are the same letter by letter, whatever their case, name one breakpoint.
-/

namespace MediaWatch

namespace Text

variable {c : Char} {s t : Text}

/-- The Kelvin sign, which is a small k in lower case. -/
def kelvinSign : Char := '\u212a'

/-- Whether a character spells a Latin letter: it is one, in either case, or the Kelvin sign. -/
def isLatin (c : Char) : Bool := c.isAlpha || c == kelvinSign

def smallLetter (c : Char) : Char := if c = kelvinSign then 'k' else c.toLower

/-- Whether two texts are the same letter by letter, in whatever case. -/
def sameLetters (s t : Text) : Bool := s.map smallLetter == t.map smallLetter

private theorem isAlpha_iff : c.isAlpha ↔ 65 ≤ c.toNat ∧ c.toNat ≤ 90 ∨ 97 ≤ c.toNat ∧ c.toNat ≤ 122 := by
  rw [Char.isAlpha, Bool.or_eq_true, Char.isUpper, Char.isLower, decide_eq_true_eq, Bool.and_eq_true, decide_eq_true_eq,
    decide_eq_true_eq]
  exact Iff.rfl

private theorem isNameChar_toLower (c : Char) : Breakpoints.isNameChar c.toLower = c.isAlpha := by
  rw [Bool.eq_iff_iff, Breakpoints.isNameChar_iff, isAlpha_iff]
  by_cases upper : c.val ≥ 'A'.val ∧ c.val ≤ 'Z'.val
  · have shifted := toNat_toLower upper
    have bounds : 65 ≤ c.toNat ∧ c.toNat ≤ 90 := upper
    omega
  · have same : c.toLower = c := dif_neg upper
    have bounds : ¬ (65 ≤ c.toNat ∧ c.toNat ≤ 90) := upper
    rw [same]
    omega

private theorem isNameChar_smallLetter (c : Char) : Breakpoints.isNameChar (smallLetter c) = isLatin c := by
  rw [smallLetter, isLatin]
  split
  · next kelvin => subst kelvin; decide
  · next other => rw [isNameChar_toLower, beq_false_of_ne other, Bool.or_false]

/-- A number behind those of the small letters is not the number of one. -/
theorem not_isNameChar_ofNat {n : Nat} (behind : 0x7b ≤ n) : Breakpoints.isNameChar (Char.ofNat n) = false := by
  rw [← Bool.not_eq_true, Breakpoints.isNameChar_iff]
  by_cases valid : n.isValidChar
  · rw [Char.toNat_ofNat, if_pos valid]
    omega
  · rw [Char.toNat_ofNat, if_neg valid]
    omega

/-- Outside ASCII, the Kelvin sign apart, no letter is moved to a small Latin one. -/
theorem moves_behind : ∀ run ∈ lowerRuns,
    run.last < 0x80 ∨ run.first = 0x212a ∧ run.last = 0x212a ∨ 0x7b ≤ run.image := by
  decide +kernel

/-- Lower case makes small Latin letters of a character alone exactly if it spells one, and then that one. -/
theorem lowerChar_cases (c : Char) :
    if isLatin c then lowerChar c = [smallLetter c] else (lowerChar c).all Breakpoints.isNameChar = false := by
  by_cases kelvin : c = kelvinSign
  · subst kelvin
    decide
  have latin : isLatin c = c.isAlpha := by rw [isLatin, beq_false_of_ne kelvin, Bool.or_false]
  by_cases ascii : c.toNat < 0x80
  · have lower : lowerChar c = [c.toLower] := if_pos ascii
    rw [latin, lower, smallLetter, if_neg kelvin, List.all_cons, List.all_nil, Bool.and_true, isNameChar_toLower]
    split
    · rfl
    · next other => exact Bool.eq_false_iff.mpr other
  · have other : ¬ c.isAlpha := by
      rw [isAlpha_iff]
      omega
    rw [latin, if_neg other, lowerChar, if_neg ascii]
    split
    · rfl
    · split
      · next run found =>
        have moves := List.find?_some found
        have bounds : run.first ≤ c.toNat ∧ c.toNat ≤ run.last := by
          simp only [CaseRun.moves, Bool.and_eq_true, decide_eq_true_eq] at moves
          exact moves.1
        have behind : 0x7b ≤ run.image := by
          rcases moves_behind run (List.mem_of_find?_eq_some found) with low | ⟨first, last⟩ | behind
          · omega
          · have same : c.toNat = kelvinSign.toNat := by
              rw [show kelvinSign.toNat = 0x212a from rfl]
              omega
            exact absurd (Char.toNat_inj.mp same) kelvin
          · exact behind
        rw [List.all_cons, not_isNameChar_ofNat (by omega), Bool.false_and]
      · rw [List.all_cons, ← Char.ofNat_toNat c, not_isNameChar_ofNat (by omega), Bool.false_and]

/-- The lower case of a character in a text, whatever stands around it. -/
theorem lowerFrom_cons (before rest : Text) (c : Char) :
    ∃ piece, lowerFrom before (c :: rest) = piece ++ lowerFrom (c :: before) rest ∧
      if isLatin c then piece = [smallLetter c] else piece.all Breakpoints.isNameChar = false := by
  refine ⟨_, rfl, ?_⟩
  by_cases sigma : c = '\u03a3'
  · subst sigma
    rw [if_neg (by decide), if_pos rfl]
    split <;> decide
  · rw [if_neg sigma]
    exact lowerChar_cases c

/-- Of Latin letters, lower case makes the small ones. -/
theorem lowerFrom_of_isLatin (letters : t.all isLatin) (before : Text) : lowerFrom before t = t.map smallLetter := by
  induction t generalizing before with
  | nil => rfl
  | cons c rest ih =>
    obtain ⟨first, others⟩ := (Bool.and_eq_true ..).to_iff.mp letters
    obtain ⟨piece, lower, small⟩ := lowerFrom_cons before rest c
    rw [if_pos first] at small
    rw [lower, small, ih others]
    rfl

/-- Lower case is made of small Latin letters for texts of Latin letters only. -/
theorem all_lowerFrom (before t : Text) : (lowerFrom before t).all Breakpoints.isNameChar = t.all isLatin := by
  induction t generalizing before with
  | nil => rfl
  | cons c rest ih =>
    obtain ⟨piece, lower, small⟩ := lowerFrom_cons before rest c
    rw [lower, List.all_append, ih, List.all_cons]
    split at small
    · next letter => rw [small, letter, List.all_cons, isNameChar_smallLetter, letter, List.all_nil, Bool.and_true]
    · next other => rw [small, Bool.eq_false_iff.mpr other, Bool.false_and]

private theorem lower_of_isLatin (letters : t.all isLatin) : t.lower = t.map smallLetter :=
  lowerFrom_of_isLatin letters []

/-- To have the lower case of a text of Latin letters is to have its letters. -/
theorem lower_eq_iff (letters : t.all isLatin) : s.lower = t.lower ↔ sameLetters s t := by
  rw [lower_of_isLatin letters, sameLetters, beq_iff_eq]
  constructor
  · intro same
    have small : s.lower.all Breakpoints.isNameChar := by
      rw [same, List.all_map]
      exact letters ▸ congrArg _ (funext isNameChar_smallLetter)
    rw [lower, all_lowerFrom] at small
    rw [← lower_of_isLatin small, same]
  · intro same
    have small : s.all isLatin := by
      rw [← funext isNameChar_smallLetter, ← Function.comp_def, ← List.all_map, same, List.all_map]
      exact letters ▸ congrArg _ (funext isNameChar_smallLetter)
    rw [lower_of_isLatin small, same]

end Text

namespace Breakpoints

variable {name : Text}

/-- A name that is made of Latin letters, of one at least. -/
def IsSpelled (name : Text) : Prop := name ≠ [] ∧ name.all Text.isLatin

instance : DecidablePred IsSpelled := fun _ => inferInstanceAs (Decidable (_ ∧ _))

/-- What is accepted in lower case is what is spelled. -/
theorem isName_lower : isName name.lower ↔ IsSpelled name := by
  rw [isName, Bool.and_eq_true, Text.lower, Text.all_lowerFrom, IsSpelled]
  refine and_congr_left fun letters => ?_
  rw [Text.lowerFrom_of_isLatin letters]
  cases name <;> simp

/-- A name that is spelled is given the range, in place of the one that it had; any other is refused. -/
theorem add_eq (b : Breakpoints) (name : Text) (range : Breakpoint) :
    b.add name range =
      if IsSpelled name then .ok ⟨b.table.insert name.lower range⟩ else .error (.breakpointName name) :=
  if_congr isName_lower rfl rfl

end Breakpoints

namespace Session.State

open Breakpoints

variable {s : State} {name : Text}

/-- The breakpoints that a client can add to. -/
def breakpoints (s : State) : Breakpoints := s.watcher.registry.breakpoints

private theorem act_addBreakpoint_eq (connected : s.engine.connected) (name : Text) (range : Breakpoint) :
    s.act (.addBreakpoint name range) =
      if IsSpelled name then
        .ok (.breakpoint (s.breakpoints.get? name),
          s.onRegistry fun r => { r with breakpoints := ⟨s.breakpoints.table.insert name.lower range⟩ })
      else .ok (.fault (.breakpointName name), s) := by
  have there : s.connected = .ok () := if_pos connected
  rw [act, there]
  dsimp only [Bind.bind, Except.bind]
  rw [add_eq]
  by_cases spelled : IsSpelled name
  · rw [if_pos spelled, if_pos spelled]
    rfl
  · rw [if_neg spelled, if_neg spelled]

/-- A breakpoint is added if its name is spelled: the step shows the range that the lower case of the name had, and then
every name of the same letters has the new one, while the others keep theirs. Otherwise nothing changes. -/
theorem act_addBreakpoint (connected : s.engine.connected) (name : Text) (range : Breakpoint) :
    (IsSpelled name → ∃ after,
      s.act (.addBreakpoint name range) = .ok (.breakpoint (s.breakpoints.table.find? name.lower), after) ∧
        ∀ other, after.breakpoints.get? other =
          if Text.sameLetters other name then some range else s.breakpoints.get? other) ∧
      (¬ IsSpelled name → s.act (.addBreakpoint name range) = .ok (.fault (.breakpointName name), s)) := by
  rw [act_addBreakpoint_eq connected]
  refine ⟨fun spelled => ?_, fun refused => if_neg refused⟩
  refine ⟨_, if_pos spelled, fun other => ?_⟩
  have found := Fields.find?_insert name.lower other.lower range s.breakpoints.table
  rw [if_congr (eq_comm.trans (Text.lower_eq_iff spelled.2)) rfl rfl] at found
  exact found

/-- In place of the usual range under `sm`, another one is added, and it is found under `SM`.
The name `sm2` is refused. -/
theorem act_addBreakpoint_usual :
    let s := start {} .standard
    s.engine.connected ∧
      (∃ after, s.act (.addBreakpoint "Sm".toList ⟨600, 899⟩) = .ok (.breakpoint (some ⟨768, 991⟩), after) ∧
        after.breakpoints.get? "SM".toList = some ⟨600, 899⟩ ∧ after.breakpoints.get? "md".toList = some ⟨992, 1199⟩) ∧
      s.act (.addBreakpoint "sm2".toList ⟨1, 2⟩) = .ok (.fault (.breakpointName "sm2".toList), s) := by
  have there : (start {} .standard).engine.connected = true := rfl
  obtain ⟨added, -⟩ := act_addBreakpoint there "Sm".toList ⟨600, 899⟩
  obtain ⟨after, told, found⟩ := added (by decide +kernel)
  refine ⟨there, ⟨after, told, ?_, ?_⟩, (act_addBreakpoint there _ _).2 (by decide +kernel)⟩
  · rw [found, if_pos (by decide +kernel)]
  · rw [found, if_neg (by decide +kernel)]
    decide +kernel

/-- The Kelvin sign is added, although it is no letter of ASCII. -/
theorem kelvin_added :
    ¬ ∀ (s : State) (name : Text) (range : Breakpoint), s.engine.connected →
      ((∃ previous after, s.act (.addBreakpoint name range) = .ok (.breakpoint previous, after)) ↔
        name ≠ [] ∧ ∀ c ∈ name, c.isAlpha) := by
  intro lettersOnly
  have there : (start {} .standard).engine.connected = true := rfl
  have added := act_addBreakpoint_eq there [Text.kelvinSign] ⟨1, 2⟩
  rw [if_pos (by decide)] at added
  have letters := (lettersOnly _ _ _ there).mp ⟨_, _, added⟩
  exact absurd (letters.2 Text.kelvinSign (List.mem_singleton.mpr rfl)) (by decide)

end Session.State

end MediaWatch
