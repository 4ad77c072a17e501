import MediaWatch.Session.Reply

/-! # Scripts

A script is a list of steps that a client takes. What the steps make is kept in named slots, and
listeners go by names too. A listener may react: a reaction is a script of its own that runs when the
listener is told something, a limited number of times, and may end in a failure.
-/

namespace MediaWatch.Session

/-- A rule of a list that is put together by hand: a payload, and a slot with a condition or a query,
or neither for a default rule. -/
structure RuleEntry where
  payload : Payload
  slot : Option Text
  query : Option Text

/-- What is inspected. -/
inductive Aspect where
  | environment
  | compiler
  | slot (name : Text)
  | trace (name : Text)
  | group (name : Text)

mutual

/-- A step of a script. -/
inductive Step where
  | width (value : Float)
  | height (value : Float)
  | resolution (value : Float)
  | size (width height : Float)
  | feature (name value : Text)
  /-- Replaces all features; without features, what was given is no snapshot. -/
  | replace (features : Option Media.Features)
  | features
  | evaluate (descriptor : Text)
  | live
  | disconnect
  | query (slot query : Text) (fresh : Bool)
  | clearCache
  | cacheSize
  | leaf (slot descriptor : Text) (inverted : Bool)
  | wrap (slot list : Text) (inverted : Bool)
  | constant (slot : Text) (holds : Bool)
  | group (slot : Text) (junction : Junction) (children : List Text)
  | optimize (slot condition : Text)
  | child (slot condition : Text) (index : Nat)
  | rules (slot rules : Text) (mask : Option Text) (reader : PayloadReader)
  | build (slot : Text) (written : Bool) (entries : List RuleEntry)
  | ruleCondition (slot rules : Text) (index : Nat)
  | list (slot descriptor : Text)
  | channel (slot : Text)
  | clone (slot source : Text)
  | show (slot : Text)
  | holds (slot : Text)
  | same (first second : Text)
  | trace (slot : Text)
  | inspect (aspect : Aspect)
  | forget (slot : Text)
  | listen (name slot : Text) (rule : Option Nat) (reactions : List Reaction)
  | unlisten (name : Text) (slot : Option Text)
  | send (slot : Text) (number : Int)
  | clear (slot : Text)
  | preprocess (term : Text)
  | resolverNames
  | useResolver (name : Text) (token : Option Text) (answer : Shortcut)
  | addBreakpoint (name : Text) (range : Breakpoint)
  | removeBreakpoint (name : Text)
  | breakpoint (name : Text)
  | breakpoints
  | addShortcut (name : Text) (shortcut : Shortcut)
  | removeShortcut (name : Text)
  | shortcut (name : Text)
  | shortcuts
  | setBot (bot : Bool)
  | setIgnoreBots (ignore : Bool)
  | unknown

/-- A reaction: how often it may still run, with no limit if that is not said; the events it waits
for; its steps; and whether it fails in the end. -/
inductive Reaction where
  | mk (left : Option Nat) (awaits : Told → Bool) (steps : List Step) (fails : Bool)

end

end MediaWatch.Session
