import JadeEditor.Text.Basic

/-!
# Flags

The flags of a command, and the sorting of its arguments: flags it knows are
taken out with their values, and from the first one it does not know all further
arguments are left for another command to read.
-/

namespace JadeEditor.Cli

set_option autoImplicit false

structure Flag where
  short : Option CodeUnit := none
  /-- Without its hyphens. -/
  long : Text
  /-- What the value stands for, if the flag takes one. -/
  argument : Option Text := none
  description : Text
  default : Option Text := none
  required : Bool := false

def doubleHyphen : Text := [CodeUnit.hyphen, CodeUnit.hyphen]

namespace Flag

def takesValue (f : Flag) : Bool := f.argument.isSome

/-- The long form as it is typed. -/
def longForm (f : Flag) : Text := doubleHyphen ++ f.long

def shortForm (f : Flag) : Option Text := f.short.map fun c => [CodeUnit.hyphen, c]

/-- The flag as messages and help texts show it. -/
def shown (f : Flag) : Text :=
  (match f.shortForm with
    | some short => short ++ utf16 ", "
    | none => [])
    ++ f.longForm
    ++ (match f.argument with
      | some name => utf16 " <" ++ name ++ utf16 ">"
      | none => [])

def isTyped (f : Flag) (arg : Text) : Bool := arg == f.longForm || some arg == f.shortForm

end Flag

/-- An argument that looks like a flag. -/
def looksLikeFlag (arg : Text) : Bool := arg.length > 1 && arg.head? == some CodeUnit.hyphen

/-- The flag of a `--name=value` argument, and the value. -/
def splitAssignment? (arg : Text) : Option (Text × Text) :=
  match Text.after? doubleHyphen arg with
  | none => none
  | some rest =>
    let name := rest.takeWhile (· != CodeUnit.equals)
    match rest.dropWhile (· != CodeUnit.equals) with
    | _ :: value => if name.isEmpty then none else some (doubleHyphen ++ name, value)
    | [] => none

/-- What an argument is to a command. -/
inductive ArgumentKind where
  /-- A flag without a value. -/
  | plain (f : Flag)
  /-- A flag whose value is the next argument. -/
  | awaiting (f : Flag)
  /-- A flag together with its value. -/
  | assigned (f : Flag) (value : Text)
  /-- A flag without a value and, in the same argument, further ones. -/
  | leading (f : Flag) (rest : Text)
  | other

/-- A group of short flags, or a short flag with its value. -/
def clusterKind (flags : List Flag) : Text → ArgumentKind
  | h :: c :: d :: rest =>
    if h = CodeUnit.hyphen ∧ c ≠ CodeUnit.hyphen then
      match flags.find? (·.isTyped [h, c]) with
      | some f => if f.takesValue then .assigned f (d :: rest) else .leading f (d :: rest)
      | none => .other
    else .other
  | _ => .other

def assignmentKind (flags : List Flag) (arg : Text) : ArgumentKind :=
  match splitAssignment? arg with
  | none => .other
  | some (name, value) =>
    match flags.find? (·.isTyped name) with
    | some f => if f.takesValue then .assigned f value else .other
    | none => .other

def argumentKind (flags : List Flag) (arg : Text) : ArgumentKind :=
  match (if looksLikeFlag arg then flags.find? (·.isTyped arg) else none) with
  | some f => if f.takesValue then .awaiting f else .plain f
  | none =>
    match clusterKind flags arg with
    | .other => assignmentKind flags arg
    | kind => kind

/-- The arguments of a command, sorted. -/
structure Parsed where
  /-- The flags given, by their long names, with their values. -/
  given : List (Text × Option Text) := []
  operands : List Text := []
  /-- The first unknown flag and everything behind it that is no known flag. -/
  unknown : List Text := []

namespace Parsed

def give (p : Parsed) (f : Flag) (value : Option Text) : Parsed :=
  { p with given := p.given ++ [(f.long, value)] }

def has (p : Parsed) (long : Text) : Bool := p.given.any fun g => g.1 == long

/-- The value given last. -/
def value? (p : Parsed) (long : Text) : Option Text :=
  (p.given.reverse.find? fun g => g.1 == long).bind Prod.snd

end Parsed

theorem clusterKind_leading {flags : List Flag} {arg rest : Text} {f : Flag}
    (h : clusterKind flags arg = .leading f rest) : rest.length + 2 = arg.length := by
  match arg with
  | [] | [_] | [_, _] => simp [clusterKind] at h
  | a :: b :: c :: more =>
    simp only [clusterKind] at h
    split at h
    · split at h
      · split at h
        · cases h
        · cases h
          simp
      · cases h
    · cases h

theorem argumentKind_leading {flags : List Flag} {arg rest : Text} {f : Flag}
    (h : argumentKind flags arg = .leading f rest) : rest.length + 2 = arg.length := by
  simp only [argumentKind] at h
  split at h
  · split at h <;> cases h
  · split at h
    · simp only [assignmentKind] at h
      split at h
      · cases h
      · split at h
        · split at h <;> cases h
        · cases h
    · exact clusterKind_leading h

/-- Sorts the arguments; fails on a flag whose value is missing. -/
def parseArguments (flags : List Flag) (p : Parsed) : List Text → Except Flag Parsed
  | [] => .ok p
  | arg :: args =>
    if arg = doubleHyphen then
      .ok (if p.unknown.isEmpty then { p with operands := p.operands ++ args }
        else { p with unknown := p.unknown ++ arg :: args })
    else
      match _h : argumentKind flags arg with
      | .plain f => parseArguments flags (p.give f none) args
      | .assigned f value => parseArguments flags (p.give f (some value)) args
      | .leading f rest => parseArguments flags (p.give f none) ((CodeUnit.hyphen :: rest) :: args)
      | .awaiting f =>
        match args with
        | [] => .error f
        | value :: args => parseArguments flags (p.give f (some value)) args
      | .other =>
        if p.unknown.isEmpty && !looksLikeFlag arg then
          parseArguments flags { p with operands := p.operands ++ [arg] } args
        else parseArguments flags { p with unknown := p.unknown ++ [arg] } args
  termination_by args => Text.extent args
  decreasing_by
    all_goals simp only [Text.extent]
    · omega
    · omega
    · have hrest := argumentKind_leading _h
      simp only [List.length_cons]
      omega
    · omega
    · omega
    · omega

end JadeEditor.Cli
