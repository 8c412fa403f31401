import Showrunner.Settings.Trouble
import Showrunner.Validation.Issue

/-!
# Faults

An operation that does not succeed ends with a fault. A fault keeps its cause; its message is
what a report shows, and its name stands in for a message that is empty.
-/

namespace Showrunner

/-- Why an operation did not succeed. -/
inductive Fault
  | value (message : Text)
  | overflow (message : Text)
  | mismatch (message : Text)
  | index (message : Text)
  | division (message : Text)
  | depth (message : Text)
  | encoding (message : Text)
  | decoding (message : Text)
  | dump (message : Text)
  | operational (message : Text)
  | integrity (message : Text)
  | store (message : Text)
  | claim (message : Text)
  | unavailable (message : Text)
  | rejected (status : Int) (body : Text)
  | tokenMissing
  | tokenExpired
  | invalid (issues : List Issue)
  | link (reason : Text)
  | timeout (message : Text)
  | system (code : Option Int) (message : Text)
  | reset (message : Text)
  | disconnected (message : Text)
  | runtime (message : Text)
  | key (message : Text)
  | cutShort (octets : Nat)
  | attribute (message : Text)
  | settings (trouble : Settings.Trouble)

namespace Fault

/-- Name a system fault by its code; most codes have no name of their own. -/
def systemName : Option Int → String
  | some 1 | some 13 => "PermissionError"
  | some 2 => "FileNotFoundError"
  | some 3 => "ProcessLookupError"
  | some 4 => "InterruptedError"
  | some 10 => "ChildProcessError"
  | some 11 | some 114 | some 115 => "BlockingIOError"
  | some 17 => "FileExistsError"
  | some 20 => "NotADirectoryError"
  | some 21 => "IsADirectoryError"
  | some 32 | some 108 => "BrokenPipeError"
  | some 103 => "ConnectionAbortedError"
  | some 104 => "ConnectionResetError"
  | some 110 => "TimeoutError"
  | some 111 => "ConnectionRefusedError"
  | _ => "OSError"

/-- Name a fault by its cause. -/
def name : Fault → Text
  | .value _ => text "ValueError"
  | .overflow _ => text "OverflowError"
  | .mismatch _ => text "TypeError"
  | .index _ => text "IndexError"
  | .division _ => text "ZeroDivisionError"
  | .depth _ => text "RecursionError"
  | .encoding _ => text "UnicodeEncodeError"
  | .decoding _ => text "UnicodeDecodeError"
  | .dump _ => text "PydanticSerializationError"
  | .operational _ => text "OperationalError"
  | .integrity _ => text "IntegrityError"
  | .store _ => text "StoreError"
  | .claim _ => text "ClaimFailure"
  | .unavailable _ => text "BackendUnavailable"
  | .rejected _ _ => text "BackendRejected"
  | .tokenMissing => text "TokenNotFound"
  | .tokenExpired => text "TokenExpired"
  | .invalid _ => text "ValidationError"
  | .link _ => text "URLError"
  | .timeout _ => text "TimeoutError"
  | .system code _ => text (systemName code)
  | .reset _ => text "ConnectionResetError"
  | .disconnected _ => text "RemoteDisconnected"
  | .runtime _ => text "RuntimeError"
  | .key _ => text "KeyError"
  | .cutShort _ => text "IncompleteRead"
  | .attribute _ => text "AttributeError"
  | .settings trouble => trouble.name

/-- Say what went wrong. -/
def message : Fault → Text
  | .value m | .overflow m | .mismatch m | .index m | .division m | .depth m | .encoding m | .decoding m
  | .dump m | .operational m | .integrity m | .store m | .claim m | .unavailable m
  | .timeout m | .reset m | .disconnected m | .runtime m | .key m | .attribute m => m
  | .rejected status body =>
      text "Backend request failed: " ++ Text.ofInt status ++ text " - " ++ body
  | .tokenMissing => text "Token expired or not found"
  | .tokenExpired => text "Token expired"
  | .invalid _ => []
  | .link reason => text "<urlopen error " ++ reason ++ text ">"
  | .system none m => m
  | .system (some code) m => text "[Errno " ++ Text.ofInt code ++ text "] " ++ m
  | .cutShort octets => text "IncompleteRead(" ++ Text.ofNat octets ++ text " bytes read)"
  | .settings trouble => trouble.message

/-- What a report shows: the message, or the name where the message is empty. -/
def shown (fault : Fault) : Text := if fault.message.isEmpty then fault.name else fault.message

end Fault

end Showrunner
