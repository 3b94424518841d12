import LinkedQuery.CommandLine.Run

/-!
# The command

Reads what the command may need, runs it, and writes the outcome.
-/

open LinkedQuery

/-- The code of the system behind a code or its negation. -/
def positiveCode (code : UInt32) : UInt32 :=
  if code < 0x80000000 then code else -code

/-- The fault with a code of the system. -/
def fileFault (code : UInt32) (reason : String) : FileFault :=
  match (positiveCode code).toNat with
  | 2 => .missing
  | 13 => .forbidden
  | 20 => .notDirectory
  | 21 => .directory
  | 36 => .nameTooLong
  | code => .other code reason

/-- The fault of a failed reading. -/
def readingFault : IO.Error → FileFault
  | .alreadyExists _ code reason | .otherError code reason | .resourceBusy code reason
  | .resourceVanished code reason | .unsupportedOperation code reason
  | .hardwareFault code reason | .unsatisfiedConstraints code reason
  | .illegalOperation code reason | .protocolError code reason | .timeExpired code reason
  | .interrupted _ code reason | .noFileOrDirectory _ code reason
  | .invalidArgument _ code reason | .permissionDenied _ code reason
  | .resourceExhausted _ code reason | .inappropriateType _ code reason
  | .noSuchThing _ code reason => fileFault code reason
  | .unexpectedEof | .userError _ => .notText

/-- The bytes that are left of a stream. -/
partial def remainingBytes (stream : IO.FS.Stream) (bytes : ByteArray) : IO ByteArray := do
  let more ← stream.read 65536
  if more.isEmpty then return bytes else remainingBytes stream (bytes ++ more)

/-- The text of the bytes that are read, or the fault. -/
def attempt (reading : IO ByteArray) : IO (Except FileFault String) := do
  try
    match String.fromUTF8? (← reading) with
    | some text => return .ok text
    | none => return .error .notText
  catch fault => return .error (readingFault fault)

/-- The files that the arguments name, with their texts. -/
def namedFiles (config : Option String) (words : List String) :
    IO (List (String × Except FileFault String)) :=
  match Arguments.parse config words with
  | .run arguments =>
    (arguments.config.toList ++ arguments.input.toList).mapM fun name => do
      return (name, ← attempt (IO.FS.readBinFile ⟨name⟩))
  | _ => return []

/-- Whether the document is to be read from the standard input. -/
def readsInput (config : Option String) (words : List String) : Bool :=
  match Arguments.parse config words with
  | .run arguments => arguments.input = none || arguments.input = some "-"
  | _ => false

/-- The command. -/
def main (words : List String) : IO UInt32 := do
  let config ← IO.getEnv "XQL_CONFIG"
  let files ← namedFiles config words
  let standardInput ←
    if readsInput config words then attempt (do remainingBytes (← IO.getStdin) .empty)
    else pure (.ok "")
  let surroundings : Surroundings :=
    { file := fun name => (files.lookup name).getD (.error .missing)
      standardInput := standardInput
      config := config }
  let outcome := CommandLine.run surroundings words
  (← IO.getStdout).putStr outcome.output
  (← IO.getStderr).putStr outcome.errors
  return outcome.code.toUInt32
