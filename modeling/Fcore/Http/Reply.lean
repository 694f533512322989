import Fcore.Lib.Table
import Fcore.Memory.Env

/-!
# Replies

A reply is its HTTP status and the message of its JSON body.
-/

namespace Fcore

structure Reply where
  status : ℕ
  message : String
  deriving DecidableEq, Repr

namespace Reply

def success (message : String) : Reply := ⟨200, message⟩

def notModified (message : String) : Reply := ⟨304, message⟩

def badRequest (message : String) : Reply := ⟨400, message⟩

def notFound (message : String) : Reply := ⟨404, message⟩

def forbidden (message : String) : Reply := ⟨403, message⟩

def conflict (message : String) : Reply := ⟨409, message⟩

def tooManyRequests (message : String) : Reply := ⟨429, message⟩

def internalError (message : String) : Reply := ⟨500, message⟩

end Reply

end Fcore
