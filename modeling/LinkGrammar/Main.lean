/-
LinkGrammar/Main.lean

The program over real files and a real clock.
-/
import LinkGrammar.Cli.Run

namespace LinkGrammar.Cli

/-- A number of nanoseconds in the largest unit of which there is one. -/
def elapsedText (nanoseconds : Nat) : String :=
  let (unit, places, name) :=
    if 1000000000 ≤ nanoseconds then (1000000000, 9, "s")
    else if 1000000 ≤ nanoseconds then (1000000, 6, "ms")
    else if 1000 ≤ nanoseconds then (1000, 3, "µs")
    else (1, 0, "ns")
  let digits := Nat.toDigits 10 (nanoseconds % unit)
  let padded := if places = 0 then [] else List.replicate (places - digits.length) '0' ++ digits
  let decimals := (padded.reverse.dropWhile (· = '0')).reverse
  toString (nanoseconds / unit) ++
    (if decimals.isEmpty then "" else "." ++ String.ofList decimals) ++ name

/-- The fault behind an error of the operating system, whose number may come negated. -/
def readFault : IO.Error → ReadFault
  | .noFileOrDirectory .. => .notFound
  | .inappropriateType _ code reason =>
    let number := min code (0 - code)
    if number = 21 then .isDirectory
    else if number = 20 then .notDirectory
    else .other reason
  | e => .other (toString e)

/-- Real files and the real clock. -/
def realHost (color : Bool) : Host IO where
  read path := do
    match ← (IO.FS.readBinFile (String.ofList path)).toBaseIO with
    | .ok bytes => return .ok bytes
    | .error e => return .error (readFault e)
  timed work := do
    let start ← IO.monoNanosNow
    let result ← IO.lazyPure work
    let stop ← IO.monoNanosNow
    return (result, elapsedText (stop - start))
  color := color

/-- Run the program and put out what it leaves behind. -/
def program (args : List String) : IO UInt32 := do
  let color ← (← IO.getStdout).isTty
  let response ← run (realHost color) (args.map String.toList)
  IO.print response.stdout
  IO.eprint response.stderr
  return response.exit.toUInt32

end LinkGrammar.Cli

/-- Run the program on the arguments it was started with. -/
def main (args : List String) : IO UInt32 := LinkGrammar.Cli.program args
