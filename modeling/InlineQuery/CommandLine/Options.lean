/-!
Splitting the arguments of a command into options and what remains. A long option takes its value
from behind an equals sign or from the next argument, a short one from the rest of its own argument
or from the next. Two dashes end the options.
-/

namespace InlineQuery.CommandLine

/-- An option with its names. A flag takes no value. -/
structure OptionForm where
  key : String
  short : Option Char
  long : String
  isFlag : Bool := false
  deriving DecidableEq, Repr, Inhabited

/-- The options that were given, in order, and the other arguments. -/
structure Arguments where
  options : List (String × String)
  rest : List String
  deriving DecidableEq, Repr, Inhabited

namespace Arguments

/-- The values of an option. -/
def values (a : Arguments) (key : String) : List String :=
  a.options.filterMap fun (k, v) => if k = key then some v else none

/-- The value of an option that counts once: the last one. -/
def value? (a : Arguments) (key : String) : Option String := (a.values key).getLast?

def hasFlag (a : Arguments) (key : String) : Bool := !(a.values key).isEmpty

def addOption (key value : String) (a : Arguments) : Arguments :=
  { a with options := (key, value) :: a.options }

def addFlags (keys : List String) (a : Arguments) : Arguments :=
  { a with options := keys.map (fun key => (key, "")) ++ a.options }

def addRest (arg : String) (a : Arguments) : Arguments := { a with rest := arg :: a.rest }

end Arguments

/-- What an argument says about options: an option with the value in the argument, several flags and
perhaps an option behind them, or nothing. -/
structure Reading where
  flags : List String
  option : Option (String × Option String)
  deriving DecidableEq, Repr, Inhabited

/-- The options that the letters behind a single dash name; none if one of them is unknown. -/
def readShort (forms : List OptionForm) : List Char → Option Reading
  | [] => some ⟨[], none⟩
  | c :: r =>
    match forms.find? fun f => f.short == some c with
    | none => none
    | some f =>
      if f.isFlag then (readShort forms r).map fun x => { x with flags := f.key :: x.flags }
      else some ⟨[], some (f.key, if r.isEmpty then none else some (String.ofList r))⟩

/-- The option that an argument with two dashes names. -/
def readLong (forms : List OptionForm) (arg : List Char) : Option Reading :=
  let name := String.ofList (arg.takeWhile (· != '='))
  let value := match arg.dropWhile (· != '=') with
    | _ :: v => some (String.ofList v)
    | [] => none
  match forms.find? fun f => f.long == name with
  | none => none
  | some f =>
    if !f.isFlag then some ⟨[], some (f.key, value)⟩
    else if value.isNone then some ⟨[f.key], none⟩ else none

def readOption (forms : List OptionForm) (arg : List Char) : Option Reading :=
  match arg with
  | '-' :: '-' :: _ => readLong forms arg
  | _ => readShort forms (arg.drop 1)

/-- Reads arguments from left to right, or gives nothing if they are not those of the command. `mixed` says
whether options may follow other arguments. An option that lacks its value is pending. -/
def readArguments (forms : List OptionForm) (mixed : Bool) (pending : Option String) :
    List String → Option Arguments
  | [] => if pending.isSome then none else some ⟨[], []⟩
  | arg :: rest =>
    match pending with
    | some key => (readArguments forms mixed none rest).map (Arguments.addOption key arg)
    | none =>
      match arg.toList with
      | ['-', '-'] => some ⟨[], rest⟩
      | '-' :: c :: r =>
        match readOption forms ('-' :: c :: r) with
        | none => none
        | some ⟨flags, some (key, none)⟩ =>
          (readArguments forms mixed (some key) rest).map (Arguments.addFlags flags)
        | some ⟨flags, some (key, some value)⟩ =>
          (readArguments forms mixed none rest).map fun a =>
            Arguments.addFlags flags (Arguments.addOption key value a)
        | some ⟨flags, none⟩ =>
          (readArguments forms mixed none rest).map (Arguments.addFlags flags)
      | _ =>
        if mixed then (readArguments forms mixed none rest).map (Arguments.addRest arg)
        else some ⟨[], arg :: rest⟩

end InlineQuery.CommandLine
