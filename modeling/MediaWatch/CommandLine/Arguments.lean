import MediaWatch.CommandLine.Switch

/-! # Arguments

How arguments are read. A switch is given by its name after two hyphens or by its letter after one;
letters may share a hyphen. A value is joined to its switch or is the next argument, which must not
look like a switch then. After a bare pair of hyphens nothing is a switch. Only `media` may be given
more than once.
-/

namespace MediaWatch.CommandLine

/-- What an argument looks like. -/
inductive Argument where
  | word (t : Text)
  /-- A bare pair of hyphens. -/
  | terminator
  /-- A long name, and what follows the first equals sign. -/
  | named (name : Text) (value : Option Text)
  /-- Letters after one hyphen, at least one. -/
  | letters (letter : Char) (rest : Text)
deriving DecidableEq, Repr

/-- What an argument looks like. A lone hyphen is a word. -/
def Argument.ofText : Text → Argument
  | ['-', '-'] => terminator
  | '-' :: '-' :: rest =>
    match Text.cutAt? ['='] rest with
    | some (name, value) => named name (some value)
    | none => named rest none
  | '-' :: letter :: rest => letters letter rest
  | t => word t

/-- What a verb was given. -/
structure Options where
  operand : Option Text := none
  /-- The pairs of names and values, in order. -/
  media : List Text := []
  config : Option Text := none
  userAgent : Option Text := none
  touch : Bool := false
  mask : Option Text := none
  object : Bool := false
  trace : Bool := false
deriving DecidableEq, Repr

namespace Options

/-- The options with the argument that has no name. Only a verb that needs one takes it, and takes one
at most. -/
def addOperand (v : Verb) (o : Options) (t : Text) : Option Options :=
  if v.operand?.isNone || o.operand.isSome then none else some { o with operand := some t }

/-- The options with a switch, whose value is empty if it takes none. Nothing but pairs can be given
twice, and a file must have a name. -/
def give (o : Options) (s : Switch) (value : Text) : Option Options :=
  match s with
  | .media => some { o with media := o.media ++ [value] }
  | .config =>
    if o.config.isSome || value.isEmpty then none else some { o with config := some value }
  | .userAgent => if o.userAgent.isSome then none else some { o with userAgent := some value }
  | .touch => if o.touch then none else some { o with touch := true }
  | .mask => if o.mask.isSome then none else some { o with mask := some value }
  | .object => if o.object then none else some { o with object := true }
  | .trace => if o.trace then none else some { o with trace := true }
  | .help => none

end Options

/-- What letters after one hyphen come to. -/
inductive Cluster where
  | options (o : Options)
  /-- A switch of which the next argument is the value. -/
  | awaiting (s : Switch) (o : Options)
  | help

/-- The letters after one hyphen. What follows a switch that takes a value is that value, with or
without an equals sign. -/
def Cluster.read? (v : Verb) (o : Options) : Text → Option Cluster
  | [] => some (.options o)
  | letter :: rest =>
    match v.switchOfLetter? letter with
    | none => none
    | some s =>
      if s.takesValue then
        match rest with
        | [] => some (.awaiting s o)
        | '=' :: value => (o.give s value).map .options
        | value => (o.give s value).map .options
      else if s = .help then some .help
      else (o.give s []).bind fun o => read? v o rest

/-- What the arguments of a verb come to. -/
inductive Given where
  | options (o : Options)
  /-- Help is asked for, at length or in short. -/
  | help (long : Bool)

/-- The arguments of a verb, the ones before having come to some options; none if they cannot be
understood. Help is given as soon as it is asked for. -/
def Given.read? (v : Verb) (o : Options) : List Text → Option Given
  | [] => some (.options o)
  | arg :: rest =>
    match Argument.ofText arg with
    | .word t => (o.addOperand v t).bind fun o => read? v o rest
    | .terminator => (rest.foldlM (Options.addOperand v) o).map .options
    | .named name value =>
      match v.switchNamed? name, value with
      | none, _ => none
      | some s, some value =>
        if s.takesValue then (o.give s value).bind fun o => read? v o rest else none
      | some s, none =>
        if s.takesValue then awaited s o rest
        else if s = .help then some (.help true)
        else (o.give s []).bind fun o => read? v o rest
    | .letters letter more =>
      match Cluster.read? v o (letter :: more) with
      | none => none
      | some .help => some (.help false)
      | some (.options o) => read? v o rest
      | some (.awaiting s o) => awaited s o rest
where
  /-- The arguments after a switch whose value is still to come. -/
  awaited (s : Switch) (o : Options) : List Text → Option Given
    | [] => none
    | value :: rest =>
      match Argument.ofText value with
      | .word value => (o.give s value).bind fun o => read? v o rest
      | _ => none

end MediaWatch.CommandLine
