import Calculator.CommandLine

namespace Calculator

partial def readToEnd (stream : IO.FS.Stream) (bytes : ByteArray) : IO ByteArray := do
  let more ← stream.read 65536
  if more.isEmpty then return bytes else readToEnd stream (bytes ++ more)

end Calculator

open Calculator

def main (args : List String) : IO UInt32 := do
  let input ← if args.isEmpty then readToEnd (← IO.getStdin) .empty else pure .empty
  let report := CommandLine.run (args.map fun word => word.toUTF8.toList) input.toList
  (← IO.getStdout).putStr report.stdout
  (← IO.getStderr).putStr report.stderr
  return report.status
