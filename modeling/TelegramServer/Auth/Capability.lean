import Mathlib.Data.Int.Notation

/-!
Requester identities (`internal/auth/capability.go`).
-/

namespace TelegramServer.Auth

/-- `auth.Capability` is an open string type: the key store reads the values
from the database. -/
abbrev Capability := String

def capMessagesDirect : Capability := "messages.direct.send"
def capMessagesDirectDM : Capability := "messages.direct.dm"
def capMessagesTopic : Capability := "messages.topic.send"
def capMessagesBroadcast : Capability := "messages.broadcast.send"
def capAppsRegister : Capability := "apps.register"
def capUsersPromote : Capability := "users.promote"
def capAuditSearch : Capability := "audit.search"

structure RequesterIdentity where
  appID : String := ""
  capabilities : List Capability := []
  capabilitySetVer : ℤ := 0
  keyPrefix : String := ""
  deriving DecidableEq

end TelegramServer.Auth
