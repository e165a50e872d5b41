import Candlestick.Service
import Candlestick.Text.Utf8

/-!
# The command line program

A service that is fed with records, one JSON text on a line, and that only logs what it
publishes. Refused records are counted and the feed goes on; a line that is no text ends it.
The program is a state and what each line does to it, so that the outer layer reads lines
and the clock and nothing else.
-/

namespace Candlestick

inductive CliError where
  | config (cause : ConfigError)
  | start (cause : StoreError)
  /-- There is no room for what the configuration asks for. -/
  | noRoom
  | feed (cause : Text.Utf8Error)

namespace CliError

def heading : CliError → String
  | config _ => "invalid OHLCV_* configuration"
  | start _ => "failed to start OHLCV service"
  | noRoom => ""
  | feed _ => "failed to read deal feed"

def detail : CliError → String
  | config cause => cause.message
  | start cause => cause.message
  | noRoom => ""
  | feed cause => cause.message

/-- The report on the error stream; a program without room ends without one. -/
def report (e : CliError) : String :=
  match e with
  | noRoom => ""
  | e => "Error: " ++ e.heading ++ "\n\nCaused by:\n    " ++ e.detail ++ "\n"

def exitCode : CliError → Nat
  | noRoom => 101
  | _ => 1

end CliError

structure Cli where
  service : Service
  refused : Nat := 0

namespace Cli

def start (environment : String → Option String) (host : TimeRule) (clock : Clock) :
    Except CliError Cli :=
  match ServiceConfig.load (ServiceConfig.nonEmpty environment) with
  | .error cause => .error (.config cause)
  | .ok config =>
    match Service.start config host clock ⟨false, 0, false⟩ 1 false with
    | .error (.store cause) => .error (.start cause)
    | .error .noRoom => .error .noRoom
    | .ok service => .ok { service }

def withoutEnd (cs : List Char) : List Char :=
  match cs.reverse with
  | '\n' :: '\r' :: rest => rest.reverse
  | '\n' :: rest => rest.reverse
  | _ => cs

/-- Ingests the record of a line; blank lines are left out. -/
def ingest (c : Cli) (line : List Char) : Cli :=
  if line.all Text.isBlank then c
  else
    let (answer, service) := c.service.call (.deliver 0 (.text (String.ofList line)))
    match answer with
    | some (.ingested (.error _)) => ⟨service, c.refused + 1⟩
    | _ => ⟨service, c.refused⟩

/-- Takes the bytes of one line, with its end where it has one. -/
def feed (c : Cli) (bytes : List UInt8) : Except CliError Cli :=
  match Text.decodeUtf8 bytes with
  | .ok cs => .ok (c.ingest (withoutEnd cs))
  | .error cause => .error (.feed cause)

def waitUntil (c : Cli) (millis : Nat) : Cli := { c with service := c.service.sleepUntil millis }

def lines (current : List UInt8) : List UInt8 → List (List UInt8)
  | [] => if current.isEmpty then [] else [current.reverse]
  | byte :: rest =>
    if byte = 10 then (byte :: current).reverse :: lines [] rest else lines (byte :: current) rest

/-- Takes line after line. Where one ends the feed, what came before it still
counts. -/
def feedAll (c : Cli) : List (List UInt8) → Cli × Option CliError
  | [] => (c, none)
  | line :: rest =>
    match c.feed line with
    | .ok c => feedAll c rest
    | .error e => (c, some e)

end Cli

structure Outcome where
  exitCode : Nat
  report : String
  /-- The metrics, where the feed came to its end. -/
  metrics : Option Metrics
  refused : Nat

def Cli.run (environment : String → Option String) (host : TimeRule) (clock : Clock)
    (input : List UInt8) : Outcome :=
  match Cli.start environment host clock with
  | .error e => ⟨e.exitCode, e.report, none, 0⟩
  | .ok c =>
    match c.feedAll (Cli.lines [] input) with
    | (c, none) => ⟨0, "", some c.service.metrics, c.refused⟩
    | (c, some e) => ⟨e.exitCode, e.report, none, c.refused⟩

end Candlestick
