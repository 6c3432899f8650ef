import Montage.Double.Text
import Montage.Text.Quoted

/-!
# Faults

Everything that can go wrong is a `Fault`.  A `ScriptFault` is the failure of one command of
a script, from which a batch of commands recovers; it has a kind, and each kind has a code
and a suggestion for the author of the script.  The other faults are those of reading
numbers, times and texts, of misused operations, and of collaborators outside the library.
`Fault.message` is the wording of each, and `Fault.family` says how far it can be treated
as a failed media lookup.
-/

namespace Montage

/-! ### Failed commands -/

/-- The kinds of failure of a command. -/
inductive ScriptFault.Kind where
  | unknown
  | mediaUnavailable
  | noSegment
  | degenerateCut
  | missingField
  | cancelled
  deriving DecidableEq, Repr

namespace ScriptFault.Kind

/-- The code that reports a kind. -/
def code : Kind → String
  | unknown => "UNKNOWN"
  | mediaUnavailable => "MEDIA_UNAVAILABLE"
  | noSegment => "NO_SEGMENT"
  | degenerateCut => "DEGENERATE_CUT"
  | missingField => "MISSING_FIELD"
  | cancelled => "CANCELLED"

/-- What the author of the script can do about it. -/
def suggestion : Kind → String
  | unknown => "Check the error message for details."
  | mediaUnavailable => "Check that the LOAD path exists and that ffprobe can read it."
  | noSegment => "CUT must fall inside a loaded segment."
  | degenerateCut => "The timeline is already cut here; remove the duplicate CUT."
  | missingField => "Check the command syntax."
  | cancelled => "The script changed while loading; it will be re-evaluated."

end ScriptFault.Kind

/-- Why a command of a script fails. -/
inductive ScriptFault where
  /-- A LOAD without a path. -/
  | pathMissing
  /-- The lookup of a path failed outside the library. -/
  | lookupFailed (path reason : String)
  /-- The duration found is no length of a segment. -/
  | unplayable (path : String) (duration : Double)
  /-- The document changed while a path was looked up. -/
  | overtaken (path : String)
  /-- There is no such file. -/
  | fileNotFound (path : String)
  /-- The program that reads durations is missing. -/
  | proberMissing (command : String)
  /-- It did not answer in time. -/
  | proberTimeout (path : String)
  /-- It ended with an error. -/
  | proberFailed (path details : String)
  /-- Its answer is no number. -/
  | noDuration (path : String)
  /-- Its answer is no length of a segment. -/
  | notPlayable (path : String)
  /-- A cut at an existing boundary. -/
  | onBoundary (stamp : String)
  /-- A cut where there is no segment. -/
  | uncovered (stamp : String)
  /-- A failure that a collaborator reported. -/
  | reported (kind : ScriptFault.Kind) (text : String)
  deriving DecidableEq

namespace ScriptFault

/-- The kind of a failure. -/
def kind : ScriptFault → Kind
  | pathMissing => .missingField
  | lookupFailed .. | unplayable .. | fileNotFound _ | proberMissing _ | proberTimeout _
  | proberFailed .. | noDuration _ | notPlayable _ => .mediaUnavailable
  | overtaken _ => .cancelled
  | onBoundary _ => .degenerateCut
  | uncovered _ => .noSegment
  | reported k _ => k

/-- The wording of a failure. -/
def message : ScriptFault → String
  | pathMissing => "LOAD needs a file path"
  | lookupFailed path reason => path ++ ": " ++ reason
  | unplayable path d => path ++ ": no playable duration (" ++ d.toText ++ ")"
  | overtaken path => path ++ ": document changed during load"
  | fileNotFound path => "media file not found: " ++ path
  | proberMissing command => "ffprobe not found (tried: " ++ command ++ ")"
  | proberTimeout path => "ffprobe timed out on " ++ path
  | proberFailed path details => "ffprobe failed on " ++ path ++ ":\n" ++ details
  | noDuration path => "ffprobe reported no duration for " ++ path
  | notPlayable path => path ++ " has no playable duration"
  | onBoundary stamp => stamp ++ " is already a segment boundary"
  | uncovered stamp => "no segment at " ++ stamp
  | reported _ text => text

end ScriptFault

/-! ### Files -/

/-- Why the file system refuses an operation on a path. -/
inductive FileRefusal where
  /-- There is nothing there. -/
  | notFound
  /-- There is something else there already. -/
  | taken
  /-- A name on the way is not that of a directory. -/
  | notADirectory
  /-- There is a directory there. -/
  | isADirectory
  /-- A name on the way, or the path as a whole, is too long. -/
  | nameTooLong
  deriving DecidableEq, Repr

namespace FileRefusal

/-- The number of a reason. -/
def number : FileRefusal → Nat
  | notFound => 2
  | taken => 17
  | notADirectory => 20
  | isADirectory => 21
  | nameTooLong => 36

/-- The wording of a reason. -/
def text : FileRefusal → String
  | notFound => "No such file or directory"
  | taken => "File exists"
  | notADirectory => "Not a directory"
  | isADirectory => "Is a directory"
  | nameTooLong => "File name too long"

end FileRefusal

/-! ### All faults -/

/-- Where a fault that is not a script's own belongs. -/
inductive Fault.Family where
  /-- Files, processes and devices. -/
  | system
  /-- A value that is not acceptable. -/
  | value
  /-- A condition found while running. -/
  | runtime
  /-- Anything else. -/
  | other
  deriving DecidableEq, Repr

/-- Why an operation fails. -/
inductive Fault where
  /-- The failure of a command. -/
  | script (cause : ScriptFault)
  /-- A text that is no timecode. -/
  | notATimecode (text : String)
  /-- A text that is no integer. -/
  | notAnInteger (text : String)
  /-- An integer with too many digits to be read. -/
  | tooManyDigits (count : Nat)
  /-- An integer with too many digits to be written. -/
  | tooLongToWrite
  /-- Rounding what is not a number. -/
  | roundedNaN
  /-- Rounding an infinity. -/
  | roundedInfinity
  /-- An integer beyond all doubles. -/
  | integerTooLarge
  /-- A quotient of integers beyond all doubles. -/
  | quotientTooLarge
  /-- A scene that starts before zero. -/
  | sceneStart
  /-- A scene that ends before it starts. -/
  | sceneOrder (stop start : String)
  /-- A segment that starts before zero. -/
  | segmentStart
  /-- A segment that does not end after its start. -/
  | segmentOrder (stop start : Double)
  /-- A segment under an id that is taken. -/
  | duplicateId (id : Int)
  /-- A word that names no state of a segment. -/
  | unknownState (word : String)
  /-- A keyword that takes no range. -/
  | notARangeKeyword (keyword : String)
  /-- Plain text where a command belongs. -/
  | notACommand (text : String)
  /-- A text pushed after closing. -/
  | closed
  /-- Closing from within a delivery, whose end would have to be waited for. -/
  | closedFromWithin
  /-- A quiet time that was left out. -/
  | noQuietTime
  /-- A time between two looks at the script that was left out. -/
  | noWaitingTime
  /-- A text that its recipient refuses. -/
  | refused (text : String)
  /-- An operation that the file system refuses. -/
  | file (cause : FileRefusal) (path : String)
  /-- A home directory that cannot be found. -/
  | noHome
  /-- The name of a user or of a file with a null character in it. -/
  | nullInName
  /-- Bytes that are no text: the bad ones, their position, and the reason. -/
  | notAText (bytes : List UInt8) (position : Nat) (reason : String)
  /-- A fault of a collaborator outside the library, under the collaborator's own name for
  it. -/
  | foreign (name : String) (family : Fault.Family) (text : String)
  deriving DecidableEq

namespace Fault

/-- The wording of a bad stretch of bytes. -/
def badBytes (bytes : List UInt8) (position : Nat) : String :=
  match bytes with
  | [b] =>
    "byte 0x" ++ String.ofList (Text.hex 2 b.toNat) ++ " in position " ++ toString position
  | _ =>
    "bytes in position " ++ toString position ++ "-" ++ toString (position + bytes.length - 1)

/-- The greatest number of digits of an integer that is read from text or written. -/
def maxDigits : Nat := 4300

/-- The wording of a fault. -/
def message : Fault → String
  | script cause => cause.message
  | notATimecode text => "Invalid timecode: " ++ Text.quoted text
  | notAnInteger text =>
    "invalid literal for int() with base 10: "
      ++ String.ofList ((Text.quoted text).toList.take 200)
  | tooManyDigits count =>
    "Exceeds the limit (" ++ toString maxDigits
      ++ " digits) for integer string conversion: value has " ++ toString count
      ++ " digits; use sys.set_int_max_str_digits() to increase the limit"
  | tooLongToWrite =>
    "Exceeds the limit (" ++ toString maxDigits
      ++ " digits) for integer string conversion; use sys.set_int_max_str_digits() to "
      ++ "increase the limit"
  | roundedNaN => "cannot convert float NaN to integer"
  | roundedInfinity => "cannot convert float infinity to integer"
  | integerTooLarge => "int too large to convert to float"
  | quotientTooLarge => "integer division result too large for a float"
  | sceneStart => "scene start must be >= 0"
  | sceneOrder stop start => "scene end " ++ stop ++ " is before start " ++ start
  | segmentStart => "segment start must be >= 0"
  | segmentOrder stop start =>
    "segment end " ++ stop.toText ++ " must be > start " ++ start.toText
  | duplicateId id => "duplicate segment id " ++ toString id
  | unknownState word => Text.quoted word ++ " is not a valid SegmentState"
  | notARangeKeyword keyword => "not a range command: " ++ keyword
  | notACommand text => "not an edit command: " ++ Text.quoted text
  | closed => "debouncer is closed"
  | closedFromWithin => "cannot join current thread"
  | noQuietTime => "unsupported operand type(s) for /: 'list' and 'int'"
  | noWaitingTime => "float() argument must be a string or a real number, not 'list'"
  | refused text => text
  | file cause path =>
    "[Errno " ++ toString cause.number ++ "] " ++ cause.text ++ ": " ++ Text.quoted path
  | noHome => "Could not determine home directory."
  | nullInName => "embedded null byte"
  | notAText bytes position reason =>
    "'utf-8' codec can't decode " ++ badBytes bytes position ++ ": " ++ reason
  | foreign _ _ text => text

/-- The family of a fault.  Numbers beyond all doubles belong to no family of their own, and
neither do values that are missing or of the wrong sort and the failures of commands. -/
def family : Fault → Family
  | file .. => .system
  | notATimecode _ | notAnInteger _ | tooManyDigits _ | tooLongToWrite | roundedNaN
  | sceneStart | sceneOrder .. | segmentStart | segmentOrder .. | duplicateId _
  | unknownState _ | notARangeKeyword _ | refused _ | nullInName | notAText .. => .value
  | closed | closedFromWithin | noHome => .runtime
  | script _ | roundedInfinity | integerTooLarge | quotientTooLarge | notACommand _
  | noQuietTime | noWaitingTime => .other
  | foreign _ f _ => f

/-- The kind under which a fault is reported. -/
def reportedKind : Fault → ScriptFault.Kind
  | script cause => cause.kind
  | _ => .unknown

/-- The standard report of a fault. -/
structure Response where
  /-- What went wrong, and where. -/
  error : String
  /-- The code of its kind. -/
  code : String
  /-- What can be done about it. -/
  suggestion : String
  deriving DecidableEq, Repr

/-- The report of a fault, with a place in front if one is given. -/
def response (f : Fault) (place : String) : Response where
  error := if place.isEmpty then f.message else place ++ ": " ++ f.message
  code := f.reportedKind.code
  suggestion := f.reportedKind.suggestion

end Fault

end Montage
