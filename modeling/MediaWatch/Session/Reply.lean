import MediaWatch.Report

/-! # Replies

What the steps of a script come to, and what listeners see.
-/

namespace MediaWatch.Session

/-- Why a step cannot be taken. -/
inductive Refusal where
  | unknownSlot
  | unknownStep
  | unknownListener
  | noSuchIndex
  | disconnected
deriving DecidableEq, Repr

/-- What a step comes to. -/
inductive Reply where
  | done
  | truth (holds : Bool)
  | count (n : Nat)
  | text (t : Text)
  | features (f : Media.Features)
  | condition (report : ConditionReport)
  | rules (report : RuleListReport)
  | list (descriptor : Text) (holds : Bool)
  | channel (listeners : Nat)
  | brief (brief : Brief)
  | trace (matched : Bool) (text : Text)
  /-- The index that counts, and index, default mark, match and trace of every rule. -/
  | ruleTrace (active : Option Nat) (steps : List (Nat × Bool × Bool × Text))
  | names (names : List Text)
  | entries (entries : List (Text × Text))
  | breakpoint (range : Option Breakpoint)
  | shortcut (shortcut : Option Shortcut)
  | fault (fault : Fault)
  /-- What was given is no snapshot of features. -/
  | noSnapshot
  | refused (refusal : Refusal)

/-- What a listener is told. -/
inductive Told where
  | truth (holds : Bool)
  | number (n : Int)
  | brief (brief : Brief)

/-- What happens in the course of a step: a listener is told something, or a step of its reaction comes
to something. -/
inductive Happening where
  | told (listener : Text) (event : Told)
  | did (listener : Text) (reply : Reply)

/-- What a step of a script comes to: its reply, the registrations with live lists while the
environment is there, and what happened. -/
structure Outcome where
  reply : Reply
  subscriptions : Option Nat
  happenings : List Happening

end MediaWatch.Session
