import TelegramServer.Go.Basic

/-!
The interfaces between a message handler, its route strategy and the dispatcher
(`internal/dispatch/dispatcher.go`, `internal/dispatch/strategy/strategy.go`).
-/

namespace TelegramServer.Dispatch

open Go

structure Envelope where
  text : String := ""
  schemaVersion : ℤ := 0
  deriving DecidableEq

structure RecipientHandle where
  userID : ℤ
  chatID : ℤ
  topicID : ℤ := 0
  channel : String := ""
  deriving DecidableEq

structure ResolveError where
  userID : ℤ
  code : String
  deriving DecidableEq

structure ResolveResult where
  recipients : List RecipientHandle := []
  skipped : List ResolveError := []
  deriving DecidableEq

structure Request where
  appID : String := ""
  recipients : List ℤ := []
  minGrade : String := ""
  envelope : Envelope
  deriving DecidableEq

/-- The errors a strategy returns, as far as `errors.Is` tells them apart. -/
inductive StrategyErr
  | appNotFound
  | emptyRecipients
  | other
  deriving DecidableEq

structure RouteStrategy where
  name : String
  resolve : Request → Except StrategyErr ResolveResult

/-- The errors of `Dispatcher.Send`. `context` is the error of a cancelled or
timed-out request context. -/
inductive DispatchErr
  | chatNotFound | botNotAdmin | rateLimited | telegramAuth | transient | context
  deriving DecidableEq

structure DeliveryResult where
  telegramMessageID : ℤ
  deliveredAt : Time
  deriving DecidableEq

/-- What one call of `Send` does: whether Telegram took the message, and what
the caller is told. The two can differ when the answer is lost. -/
structure SendOutcome where
  accepted : Bool
  result : Except DispatchErr DeliveryResult

def SendOutcome.succeeded (out : SendOutcome) : Bool := out.result.isOk

end TelegramServer.Dispatch
