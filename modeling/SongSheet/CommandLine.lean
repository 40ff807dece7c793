/-
SongSheet/CommandLine.lean

The command line.

    check FILE                                        prints the sheet of a text
    play FILE [-c CONFIG] [-m VOLUME]                 plays it, and prints the report

`-v` asks for more events to be told and may stand anywhere.  Every option has a
short and a long name; short names without a value can be joined, and a value may
follow its name directly, after `=`, or as the next word.  A next word that looks
like an option is no value.  What follows `--` is no option.  No option is given
twice.

What comes of a run depends on the arguments and on the files they name, and on
nothing else.
-/
import SongSheet.Binary.Decimal
import SongSheet.Playback.Session
import SongSheet.ProgramError
import SongSheet.SheetDocument
import SongSheet.Text.Split
import SongSheet.Text.Terminal

namespace SongSheet.CommandLine

open Text Playback

/-! ### Options -/

/-- The options. -/
inductive Switch where
  | verbose
  | help
  | config
  | volume
  deriving DecidableEq, Repr

namespace Switch

/-- The options of all commands. -/
def general : List Switch := [verbose, help]

/-- The options of `play`. -/
def forPlay : List Switch := [verbose, help, config, volume]

/-- The name behind one dash. -/
def short : Switch → Char
  | verbose => 'v'
  | help => 'h'
  | config => 'c'
  | volume => 'm'

/-- The name behind two dashes. -/
def long : Switch → String
  | verbose => "verbose"
  | help => "help"
  | config => "config"
  | volume => "master-volume"

/-- The option comes with a value. -/
def takesValue : Switch → Bool
  | config | volume => true
  | verbose | help => false

end Switch

/-- Why nothing is run. -/
inductive Stop where
  /-- The help was asked for. -/
  | help
  /-- The arguments make no sense. -/
  | usage
  deriving DecidableEq, Repr

/-- What has been read of the arguments of a command. -/
structure Arguments where
  verbose : Bool
  input : Option String
  config : Option String
  volume : Option Single
  deriving DecidableEq

namespace Arguments

/-- No arguments. -/
def empty : Arguments := ⟨false, none, none, none⟩

/-- Takes an option without a value. -/
def flag (a : Arguments) : Switch → Except Stop Arguments
  | .help => .error .help
  | .verbose => if a.verbose then .error .usage else .ok { a with verbose := true }
  | .config | .volume => .error .usage

/-- Takes an option with its value. -/
def value (a : Arguments) (s : Switch) (v : List Char) : Except Stop Arguments :=
  match s with
  | .config =>
      if a.config.isSome || v.isEmpty then .error .usage
      else .ok { a with config := some (String.ofList v) }
  | .volume =>
      if a.volume.isSome then .error .usage
      else match Binary.read v with
        | some x => .ok { a with volume := some x }
        | none => .error .usage
  | .verbose | .help => .error .usage

/-- Takes the name of the file. -/
def file (a : Arguments) (v : List Char) : Except Stop Arguments :=
  if a.input.isSome || v.isEmpty then .error .usage
  else .ok { a with input := some (String.ofList v) }

end Arguments

/-! ### Reading arguments -/

/-- The word starts with a dash and is more than that. -/
def looksLikeOption : List Char → Bool
  | '-' :: _ :: _ => true
  | _ => false

/-- Takes short names; the answer names the option whose value is the next word. -/
def readShort (accepted : List Switch) :
    Arguments → List Char → Except Stop (Arguments × Option Switch)
  | a, [] => .ok (a, none)
  | a, c :: cs =>
      match accepted.find? (·.short = c) with
      | none => .error .usage
      | some s =>
          if s.takesValue then
            match cs with
            | [] => .ok (a, some s)
            | '=' :: v => (a.value s v).map (·, none)
            | v => (a.value s v).map (·, none)
          else
            match a.flag s with
            | .error e => .error e
            | .ok a => readShort accepted a cs

/-- Takes a long name; the answer names the option whose value is the next word. -/
def readLong (accepted : List Switch) (a : Arguments) (cs : List Char) :
    Except Stop (Arguments × Option Switch) :=
  let (name, v) : List Char × Option (List Char) :=
    match splitFirst '=' cs with
    | some (name, v) => (name, some v)
    | none => (cs, none)
  match accepted.find? (·.long = String.ofList name), v with
  | none, _ => .error .usage
  | some s, some v => (a.value s v).map (·, none)
  | some s, none => if s.takesValue then .ok (a, some s) else (a.flag s).map (·, none)

/-- Takes the words of a command, where `pending` waits for its value. -/
def readWords (accepted : List Switch) :
    Arguments → Option Switch → List (List Char) → Except Stop Arguments
  | a, none, [] => .ok a
  | _, some _, [] => .error .usage
  | a, some s, w :: ws =>
      if looksLikeOption w then .error .usage
      else match a.value s w with
        | .error e => .error e
        | .ok a => readWords accepted a none ws
  | a, none, ['-', '-'] :: ws => ws.foldlM Arguments.file a
  | a, none, ('-' :: '-' :: cs) :: ws =>
      match readLong accepted a cs with
      | .error e => .error e
      | .ok (a, pending) => readWords accepted a pending ws
  | a, none, ('-' :: c :: cs) :: ws =>
      match readShort accepted a (c :: cs) with
      | .error e => .error e
      | .ok (a, pending) => readWords accepted a pending ws
  | a, none, w :: ws =>
      match a.file w with
      | .error e => .error e
      | .ok a => readWords accepted a none ws

/-! ### Invocations -/

/-- What is asked for. -/
inductive Order where
  | check (input : String)
  | play (input : String) (config : Option String) (volume : Single)
  deriving DecidableEq

/-- An order, and how much is to be told. -/
structure Invocation where
  verbose : Bool
  order : Order
  deriving DecidableEq

namespace Invocation

/-- Reads the words behind the name of a command. -/
def ofCommand (verbose : Bool) (accepted : List Switch) (order : Arguments → String → Order)
    (ws : List (List Char)) : Except Stop Invocation :=
  match readWords accepted .empty none ws with
  | .error e => .error e
  | .ok a =>
      match a.input with
      | some input => .ok ⟨verbose || a.verbose, order a input⟩
      | none => .error .usage

/-- The order to play; the volume is full unless given. -/
def playOrder (a : Arguments) (input : String) : Order :=
  .play input a.config (a.volume.getD (Binary.ofNat 1))

/-- The names of the commands. -/
def commandNames : List String := ["check", "play", "help"]

/-- Reads the words behind `help`: nothing, or a command. -/
def ofHelp : List (List Char) → Stop
  | [] => .help
  | [w] => if commandNames.contains (String.ofList w) then .help else .usage
  | _ => .usage

/-- Reads the words of a command line, after the general options in `a`. -/
def ofWords : Arguments → List (List Char) → Except Stop Invocation
  | _, [] => .error .usage
  | a, w :: ws =>
      if w = "check".toList then
        ofCommand a.verbose Switch.general (fun _ input => .check input) ws
      else if w = "play".toList then ofCommand a.verbose Switch.forPlay playOrder ws
      else if w = "help".toList then .error (ofHelp ws)
      else
        let read := match w with
          | '-' :: '-' :: cs => readLong Switch.general a cs
          | '-' :: c :: cs => readShort Switch.general a (c :: cs)
          | _ => .error .usage
        match read with
        | .error e => .error e
        | .ok (a, _) => ofWords a ws

/-- Reads a command line. -/
def ofArguments (args : List String) : Except Stop Invocation :=
  ofWords .empty (args.map String.toList)

/-- The files that an invocation reads, in order. -/
def files (i : Invocation) : List String :=
  match i.order with
  | .check input => [input]
  | .play input config _ => input :: config.toList

end Invocation

/-! ### Running -/

/-- What is left of a run. -/
structure Ending where
  exit : Nat
  output : String
  /-- Why there is no result, as it is shown. -/
  errors : List String
  /-- What was told while a sheet was played, with the instants. -/
  events : List (Nat × Event)
  deriving DecidableEq

namespace Ending

/-- A run that ends well. -/
def success (output : String) (events : List (Nat × Event)) : Ending := ⟨0, output, [], events⟩

/-- A run that fails. -/
def failure (e : ProgramError) : Ending := ⟨1, "", [Text.forTerminal e.message], []⟩

/-- A run in which no length of time can hold what was configured. -/
def crash : Ending := ⟨101, "", [], []⟩

/-- A run that did not start. -/
def ofStop : Stop → Ending
  | .help => ⟨0, "", [], []⟩
  | .usage => ⟨2, "", [], []⟩

end Ending

/-- The files by name. -/
abbrev Files := String → Except FileError (List Char)

/-- Reads the configuration; without a file it is the initial one. -/
def readConfig (files : Files) : Option String → Except FileError Config.Reading
  | none => .ok (.config .initial)
  | some name => (files name).map Config.ofYaml

/-- The configuration on a clock that is never still: every wait takes some time. -/
def onRealClock (c : Config) : Config := { c with throttleTick := max 1 c.throttleTick }

/-- Prints the sheet of a file. -/
def check (files : Files) (input : String) : Ending :=
  match files input with
  | .error e => .failure (.file e)
  | .ok text =>
      match Sheet.ofText text with
      | .error e => .failure (.sheet e)
      | .ok sheet => .success (sheet.toYaml ++ "\n") []

/-- Plays a text, and prints the report. -/
def playText (config : Config) (volume : Single) (text : List Char) : Option Ending :=
  let session := (Session.ofRenderer .logging (onRealClock config)).setVolume volume
  match session.playText .nothing text with
  | .error e => some (.failure (.sheet e))
  | .ok none => none
  | .ok (some r) => some (.success ((r.report.map (·.toYaml)).getD "") r.events)

/-- Plays the sheet of a file.  Both files are read before the sheet is. -/
def play (files : Files) (input : String) (config : Option String) (volume : Single) :
    Option Ending :=
  match files input with
  | .error e => some (.failure (.file e))
  | .ok text =>
      match readConfig files config with
      | .error e => some (.failure (.file e))
      | .ok (.refused r) => some (.failure (.config r))
      | .ok .crash => some .crash
      | .ok (.config c) => playText c volume text

/-- Carries out an invocation; `none` if that never ends. -/
def Invocation.run (files : Files) (i : Invocation) : Option Ending :=
  match i.order with
  | .check input => some (CommandLine.check files input)
  | .play input config volume => CommandLine.play files input config volume

/-- Runs the program; `none` if that never ends. -/
def run (args : List String) (files : Files) : Option Ending :=
  match Invocation.ofArguments args with
  | .error stop => some (.ofStop stop)
  | .ok i => i.run files

end SongSheet.CommandLine
