import MediaWatch.Shortcut.Breakpoint
import MediaWatch.Shortcut.Density
import MediaWatch.Shortcut.Environment

/-! # The registry

A registry puts descriptors in place of shortcuts. It asks its resolvers in order, the one registered
last first, and after all of them the environment, the breakpoints and the densities. The first
answer counts; a shortcut that nobody knows is left as it is.
-/

namespace MediaWatch

/-- A named resolver of lower-case tokens, which may decline. -/
structure Resolver where
  name : Text
  resolve : Text → Option Shortcut

def Resolver.exactly (name token : Text) (answer : Shortcut) : Resolver :=
  ⟨name, fun asked => if asked = token then some answer else none⟩

def Resolver.always (name : Text) (answer : Shortcut) : Resolver := ⟨name, fun _ => some answer⟩

/-- Everything that shortcuts are looked up in. -/
structure Registry where
  /-- The registered resolvers, the last one first. -/
  custom : List Resolver := []
  environment : Environment
  breakpoints : Breakpoints
  density : Density

namespace Registry

def ofDevice (d : Device) : Registry where
  environment := .ofDevice d
  breakpoints := .standard
  density := { bot := d.bot }

/-- The usual registry for a device that nothing is known of. -/
def standard : Registry := ofDevice {}

/-- The registry with one more resolver, which is asked first. -/
def use (r : Registry) (resolver : Resolver) : Registry := { r with custom := resolver :: r.custom }

/-- All resolvers in the order in which they are asked. -/
def chain (r : Registry) : List Resolver :=
  r.custom ++
    [⟨"env".toList, r.environment.get?⟩, ⟨"breakpoints".toList, r.breakpoints.resolve?⟩,
     ⟨"dpr".toList, r.density.resolve?⟩]

/-- The names of all resolvers in the order in which they are asked. -/
def resolverNames (r : Registry) : List Text := r.chain.map (·.name)

/-- What a lower-case token stands for. -/
def resolve? (r : Registry) (token : Text) : Option Shortcut :=
  r.chain.findSome? fun resolver => resolver.resolve token

def isTokenChar (c : Char) : Bool := c.isAlphanum || c = '.' || c = '+' || c = '-'

/-- The token of a term: what follows an at sign, if it is not empty and made of token characters
alone. -/
def token? : Text → Option Text
  | '@' :: token => if !token.isEmpty && token.all isTokenChar then some token else none
  | _ => none

/-- The term that is compiled in place of a term. -/
def preprocess (r : Registry) (term : Text) : Text :=
  match token? term with
  | none => term
  | some token =>
    match r.resolve? (Text.lowerAscii token) with
    | some shortcut => shortcut.term
    | none => term

example : standard.preprocess "@+MD".toList = "(min-width: 992px)".toList := by decide +kernel
example : standard.preprocess "@1.50x".toList = "(min-resolution: 1.5dppx)".toList := by
  decide +kernel
example : standard.preprocess "@nobody".toList = "@nobody".toList := by decide +kernel

end Registry

end MediaWatch
