import Candlestick.Cli
import Candlestick.Zone.Posix
import Std.Time.DateTime.Timestamp

/-!
# The outer layer

Reads the environment, the clock and the lines of the standard input, and hands them to
`Cli`. Nothing is decided here.
-/

namespace Candlestick.Main

def environment : IO (String → Option String) := do
  let values ← ServiceConfig.names.mapM fun name => return (name, ← IO.getEnv name)
  return fun name => (values.lookup name).join

/-- The rule of the host, as far as the environment gives it in POSIX notation,
UTC otherwise. -/
def hostRule : IO TimeRule := do
  return ((← IO.getEnv "TZ").bind TimeRule.ofPosix?).getD (.fixed 0)

def clock : IO Clock := do
  let now ← Std.Time.Timestamp.now
  return ⟨.clamp now.toNanosecondsSinceUnixEpoch.val, true⟩

/-- Reads the bytes of a line with its end, none at the end of the input. -/
partial def readLine (input : IO.FS.Stream) (read : List UInt8) : IO (List UInt8) := do
  match (← input.read 1).toList with
  | byte :: _ =>
    if byte = 10 then return (byte :: read).reverse else readLine input (byte :: read)
  | [] => return read.reverse

def fail (e : CliError) : IO UInt32 := do
  IO.eprint e.report
  return e.exitCode.toUInt32

/-- Feeds line after line. -/
partial def follow (input : IO.FS.Stream) (began : Nat) (c : Cli) : IO UInt32 := do
  let line ← readLine input []
  if line.isEmpty then return 0
  match (c.waitUntil ((← IO.monoMsNow) - began)).feed line with
  | .ok c => follow input began c
  | .error e => fail e

end Candlestick.Main

def main : IO UInt32 := do
  match Candlestick.Cli.start (← Candlestick.Main.environment) (← Candlestick.Main.hostRule)
      (← Candlestick.Main.clock) with
  | .ok c => Candlestick.Main.follow (← IO.getStdin) (← IO.monoMsNow) c
  | .error e => Candlestick.Main.fail e
