import SheetCalc.Text

/-!
# Arguments of a command line

An argument that begins with a dash is an option, unless it is the dash alone. An option is a
switch, or it has a value: behind an equals sign or as the argument that follows, whatever that
looks like. Two dashes end the options. Options and other arguments may stand in any order.
-/

namespace SheetCalc.Command

/-- The options that a command has. -/
structure Options where
  switches : List String := []
  valued : List String := []
  deriving Inhabited

/-- The arguments of a command, in the order in which they are given. A switch has no value. -/
structure Arguments where
  options : List (String × Option Text) := []
  others : List Text := []
  deriving Inhabited

/-- Two dashes. -/
def endOfOptions : Text := "--"

/-- Whether an argument has the form of an option. -/
def isOption (arg : Text) : Bool :=
  match arg.points with
  | p :: _ :: _ => p == .ofChar '-'
  | _ => false

/-- The name of an option, and the value behind the first equals sign if there is one. -/
def splitOption (arg : Text) : Text × Option Text :=
  let (name, rest) := arg.points.span (· != .ofChar '=')
  (⟨name⟩,
    match rest with
    | [] => none
    | _ :: value => some ⟨value⟩)

/-- The one of several names that a text is. -/
def nameIn? (names : List String) (t : Text) : Option String :=
  names.find? fun name => t == name

namespace Arguments

/-- Whether a switch is given. -/
def has (a : Arguments) (switch : String) : Bool :=
  a.options.any (·.1 == switch)

/-- The value of an option. Of more than one the last counts. -/
def value? (a : Arguments) (name : String) : Option Text :=
  (a.options.reverse.lookup name).join

/-- The names of the options that are given, in the order in which they are given first. -/
def given (a : Arguments) : List String :=
  (a.options.map (·.1)).eraseDups

/-- Goes on reading behind the arguments that were read. -/
def readFrom (options : Options) (a : Arguments) : List Text → Option Arguments
  | [] => some a
  | arg :: rest =>
    if arg = endOfOptions then some { a with others := a.others ++ rest }
    else if isOption arg then
      let (name, inner?) := splitOption arg
      match nameIn? options.valued name, nameIn? options.switches name, inner?, rest with
      | some name, _, some value, rest | some name, _, none, value :: rest =>
        readFrom options { a with options := a.options ++ [(name, some value)] } rest
      | none, some name, none, rest =>
        readFrom options { a with options := a.options ++ [(name, none)] } rest
      | _, _, _, _ => none
    else readFrom options { a with others := a.others ++ [arg] } rest
termination_by args => args.length

/-- Reads arguments. There are none if an option is unknown or lacks its value. -/
def read? (options : Options) (args : List Text) : Option Arguments :=
  readFrom options {} args

end Arguments

end SheetCalc.Command
