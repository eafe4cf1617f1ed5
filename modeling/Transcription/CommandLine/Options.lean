import Transcription.Path

/-!
# Command-line options

The arguments are read from left to right. An option with a value takes it from the same argument
or from the next one, which may then not look like an option; a single dash does not look like
one. Every option may be given once, one file may be named, and a double dash ends the options.
Asking for the version or for help ends the reading at once, unless something before it is wrong;
that a currency and the automatic one exclude each other is checked at the end.
-/

namespace Transcription.CommandLine

/-- What a run is asked to do. -/
structure Options where
  currency : Option String
  /-- Resolve the currency from the public address. -/
  auto : Bool
  /-- Use the naive quote policy. -/
  naive : Bool
  /-- Print the report instead of the text. -/
  detailed : Bool
  /-- The file to read. -/
  file : Option Path
  deriving Repr, DecidableEq

/-- What the arguments ask for. -/
inductive Request where
  | run (options : Options)
  | version
  | help
  | misused
  deriving Repr, DecidableEq

namespace Options

/-- Nothing has been asked for. -/
def none : Options := ⟨.none, false, false, false, .none⟩

/-- The input file; a single dash stands for standard input. -/
def inputFile (o : Options) : Option Path :=
  o.file.filter fun p => p.text != "-"

theorem inputFile_eq_some_iff {o : Options} {p : Path} :
    o.inputFile = some p ↔ o.file = some p ∧ p.text ≠ "-" := by
  simp [inputFile, Option.filter_eq_some_iff]

/-- Whether an argument looks like an option. -/
def isOptionLike (arg : List Char) : Bool :=
  arg.head? == some '-' && arg != ['-']

/-- Take a currency. -/
def withCurrency? (o : Options) (symbol : List Char) : Option Options :=
  if o.currency.isSome then .none else some { o with currency := some (String.ofList symbol) }

/-- Take a file. A file's name is not empty. -/
def withFile? (o : Options) (name : List Char) : Option Options :=
  if o.file.isSome || name.isEmpty then .none
  else some { o with file := some ⟨String.ofList name⟩ }

/-- Set a flag that was given before or not. -/
def flag? (given : Bool) (next : Options) : Option Options :=
  if given then .none else some next

/-- The options that are complete with the last argument. -/
def finish (o : Options) : Request :=
  if o.auto && o.currency.isSome then .misused else .run o

/-- Read the arguments after the end of the options: they are files. -/
def readFiles (o : Options) : List String → Request
  | [] => o.finish
  | arg :: args =>
    match o.withFile? arg.toList with
    | some o => o.readFiles args
    | .none => .misused

/-- What one argument does, apart from an option whose value is the next argument. -/
inductive Effect where
  | options (o : Options)
  /-- The next argument is the currency. -/
  | awaitCurrency
  | endOfOptions
  | version
  | help
  | misused

/-- Take an option or report a misuse. -/
def Effect.ofOption : Option Options → Effect
  | some o => .options o
  | .none => .misused

/-- The effect of a long option from its name and the value that the same argument gives to it. -/
def named (o : Options) (name : String) (value : Option (List Char)) : Effect :=
  match name, value with
  | "currency", some v => .ofOption (o.withCurrency? v)
  | "currency", .none => .awaitCurrency
  | "auto", .none => .ofOption (flag? o.auto { o with auto := true })
  | "naive", .none => .ofOption (flag? o.naive { o with naive := true })
  | "detailed", .none => .ofOption (flag? o.detailed { o with detailed := true })
  | "version", .none => .version
  | "help", .none => .help
  | _, _ => .misused

/-- The effect of a long option, without its dashes. An equals sign ends its name. -/
def long (o : Options) (arg : List Char) : Effect :=
  o.named (String.ofList (arg.takeWhile (· != '='))) (arg.dropWhile (· != '=')).tail?

/-- The effect of a group of short options, without its dash. -/
def short (o : Options) (arg : List Char) : Effect :=
  match arg with
  | ['c'] => .awaitCurrency
  | 'c' :: '=' :: v => .ofOption (o.withCurrency? v)
  | 'c' :: v => .ofOption (o.withCurrency? v)
  | 'V' :: _ => .version
  | 'h' :: _ => .help
  | _ => .misused

/-- The effect of an argument. -/
def effect (o : Options) (arg : List Char) : Effect :=
  match arg with
  | ['-', '-'] => .endOfOptions
  | '-' :: '-' :: cs => o.long cs
  | ['-'] => .ofOption (o.withFile? ['-'])
  | '-' :: cs => o.short cs
  | cs => .ofOption (o.withFile? cs)

/-- Read arguments. -/
def read (o : Options) : List String → Request
  | [] => o.finish
  | arg :: args =>
    match o.effect arg.toList with
    | .options o => o.read args
    | .endOfOptions => o.readFiles args
    | .version => .version
    | .help => .help
    | .misused => .misused
    | .awaitCurrency =>
      match args with
      | [] => .misused
      | value :: args =>
        if isOptionLike value.toList then .misused
        else
          match o.withCurrency? value.toList with
          | some o => o.read args
          | .none => .misused

end Options

/-- What the arguments of a command line ask for. -/
def request (args : List String) : Request := Options.none.read args

end Transcription.CommandLine
