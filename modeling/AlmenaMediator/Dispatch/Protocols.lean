import AlmenaMediator.Dispatch.Basic
import Mathlib.Data.List.DropRight

/-!
# The protocols the mediator answers

`dispatch/protocols.rs`: message types, Trust Ping 2.0, Discover Features 2.0 and Report Problem
2.0.
-/

namespace Dispatch

open Didcomm

def pingType : String := "https://didcomm.org/trust-ping/2.0/ping"
def pingResponseType : String := "https://didcomm.org/trust-ping/2.0/ping-response"
def queriesType : String := "https://didcomm.org/discover-features/2.0/queries"
def discloseType : String := "https://didcomm.org/discover-features/2.0/disclose"
def problemReportType : String := "https://didcomm.org/report-problem/2.0/problem-report"

def coordinateMediation : String := "https://didcomm.org/coordinate-mediation/3.0/"
def mediateRequest : String := "https://didcomm.org/coordinate-mediation/3.0/mediate-request"
def mediateGrant : String := "https://didcomm.org/coordinate-mediation/3.0/mediate-grant"
def recipientUpdate : String := "https://didcomm.org/coordinate-mediation/3.0/recipient-update"
def recipientUpdateResponse : String :=
  "https://didcomm.org/coordinate-mediation/3.0/recipient-update-response"
def recipientQuery : String := "https://didcomm.org/coordinate-mediation/3.0/recipient-query"
def recipientType : String := "https://didcomm.org/coordinate-mediation/3.0/recipient"

def pickup : String := "https://didcomm.org/messagepickup/3.0/"
def statusRequest : String := "https://didcomm.org/messagepickup/3.0/status-request"
def statusType : String := "https://didcomm.org/messagepickup/3.0/status"
def deliveryRequest : String := "https://didcomm.org/messagepickup/3.0/delivery-request"
def deliveryType : String := "https://didcomm.org/messagepickup/3.0/delivery"
def messagesReceived : String := "https://didcomm.org/messagepickup/3.0/messages-received"
def liveDeliveryChange : String := "https://didcomm.org/messagepickup/3.0/live-delivery-change"

def pushFcm : String := "https://didcomm.org/push-notifications-fcm/1.0/"
def pushApns : String := "https://didcomm.org/push-notifications-apns/1.0/"
/-- Message names shared by both push protocols. -/
def setDeviceInfo : String := "set-device-info"
def getDeviceInfo : String := "get-device-info"
def deviceInfo : String := "device-info"
/-- The `ack` the push protocols answer `set-device-info` with. -/
def ack : String := "https://didcomm.org/notification/1.0/ack"

/-- The push protocol of a service, with the trailing `/` of a message type. -/
def pushProtocol : Store.Service → String
  | .fcm => pushFcm
  | .apns => pushApns

/-! ## Trust Ping -/

/-- A `ping-response` unless the sender asked for none. -/
def trustPing (ping : Message) : Task (Option Message) :=
  if ((ping.body.get "response_requested").bind Value.asBool).getD true then do
    let response ← newMessage pingResponseType (.object [])
    return some (response.replyTo ping)
  else return none

/-! ## Problem reports -/

/-- Problems the mediator reports back to the sender. -/
inductive Problem
  /-- The message type is not one the mediator handles. -/
  | unsupportedType
  /-- The body does not have the shape the message type requires. -/
  | invalidBody
  /-- `expires_time` has passed. -/
  | expired
  /-- Mediation and pickup need an authcrypted sender. -/
  | unauthenticated
  /-- The sender has no mediation with this mediator. -/
  | noMediation
  /-- A `recipient_did` that the sender's mediation has not registered. -/
  | unknownRecipient (did : String)
  /-- `live_delivery: true` on a connection that cannot deliver live. -/
  | liveModeNotSupported
  deriving DecidableEq, Repr

namespace Problem

def code : Problem → String
  | unsupportedType => "e.m.msg.unsupported-type"
  | invalidBody => "e.m.msg.invalid-body"
  | expired => "e.m.req.time.expired"
  | unauthenticated => "e.m.trust.unauthenticated"
  | noMediation => "e.m.req.no-mediation"
  | unknownRecipient _ => "e.m.msg.unknown-recipient"
  | liveModeNotSupported => "e.m.live-mode-not-supported"

/-- Static per code, as the spec requires of `comment`. -/
def comment : Problem → String
  | unsupportedType => "Message type {1} is not supported."
  | invalidBody => "The message body is not valid for its type."
  | expired => "The message expired before it was processed."
  | unauthenticated => "This message must be authcrypted by its sender."
  | noMediation => "Request mediation first."
  | unknownRecipient _ => "Recipient DID {1} is not registered by this mediation."
  | liveModeNotSupported => "Connection does not support Live Delivery"

/-- What the comment's placeholders stand for. -/
def args (trigger : Message) : Problem → List (String × Value)
  | unsupportedType => [("args", .array [.string trigger.type_])]
  | unknownRecipient did => [("args", .array [.string did])]
  | _ => []

/-- A problem report about `trigger`: a child thread of the trigger's thread that acknowledges the
trigger. -/
def report (problem : Problem) (trigger : Message) : Task Message := do
  let report ← newMessage problemReportType (.object
    ([("code", .string problem.code), ("comment", .string problem.comment)] ++
      problem.args trigger))
  return { report.header "ack" (.array [.string trigger.id]) with pthid := some trigger.threadId }

end Problem

/-! ## Discover Features -/

/-- Feature of the mediator, as disclosed by Discover Features. -/
structure Feature where
  featureType : String
  id : String
  roles : List String
  deriving DecidableEq, Repr

def features : List Feature := [
  ⟨"protocol", "https://didcomm.org/trust-ping/2.0", ["receiver"]⟩,
  ⟨"protocol", "https://didcomm.org/discover-features/2.0", ["responder"]⟩,
  ⟨"protocol", "https://didcomm.org/report-problem/2.0", []⟩,
  ⟨"protocol", "https://didcomm.org/coordinate-mediation/3.0", ["mediator"]⟩,
  ⟨"protocol", "https://didcomm.org/routing/2.0", ["mediator"]⟩,
  ⟨"protocol", "https://didcomm.org/messagepickup/3.0", ["mediator"]⟩,
  ⟨"header", "return_route", []⟩]

/-- What is left of a text behind `start`. -/
def stripStart {α : Type} [DecidableEq α] : (start text : List α) → Option (List α)
  | [], text => some text
  | _ :: _, [] => none
  | a :: start, b :: text => if a = b then stripStart start text else none

/-- Matches the literal pieces of a pattern between its `*`s, one after the other. -/
def matchesPieces : List (List Char) → List Char → Bool
  | [], _ => false
  | [piece], value => piece == value
  | piece :: pieces, value => (stripStart piece value).any fun tail =>
    tail.tails.any (matchesPieces pieces)

/-- `*` matches any run of characters; everything else matches literally. -/
def matchesPattern (pattern value : String) : Bool :=
  matchesPieces (pattern.toList.splitOn '*') value.toList

example : matchesPattern "https://didcomm.org/*/2.0" "https://didcomm.org/trust-ping/2.0" := by
  decide

/-- `str::trim_end_matches('/')`. -/
def trimEndSlashes (text : String) : String :=
  String.ofList (text.toList.rdropWhile (· == '/'))

/-- The disclosures that one query asks for. -/
def disclosuresOf (maxReceiveBytes : ℕ) (push : List Store.Service) (featureType pattern : String) :
    List Value :=
  let fixed := (features.filter fun f =>
    f.featureType == featureType && matchesPattern pattern f.id).map fun f =>
      Value.object ([("feature-type", .string f.featureType), ("id", .string f.id)] ++
        if f.roles = [] then [] else [("roles", .array (f.roles.map .string))])
  let protocols := if featureType = "protocol" then
      (push.filter fun s => matchesPattern pattern (trimEndSlashes (pushProtocol s))).map fun s =>
        Value.object [("feature-type", .string "protocol"),
          ("id", .string (trimEndSlashes (pushProtocol s))),
          ("roles", .array [.string "notification-sender"])]
    else []
  let constraints := if featureType = "constraint" && matchesPattern pattern
    "max_receive_bytes" then
      [Value.object [("feature-type", .string "constraint"), ("id", .string "max_receive_bytes"),
        ("max_receive_bytes", .string (toString maxReceiveBytes))]]
    else []
  fixed ++ protocols ++ constraints

/-- The disclosures for each query in turn; none if a query has not the shape required. -/
def disclosures (maxReceiveBytes : ℕ) (push : List Store.Service) :
    List Value → Option (List Value)
  | [] => some []
  | query :: queries => do
    let featureType ← (query.get "feature-type").bind Value.asStr
    let pattern ← (query.get "match").bind Value.asStr
    let rest ← disclosures maxReceiveBytes push queries
    return disclosuresOf maxReceiveBytes push featureType pattern ++ rest

/-- A `disclose` listing the features that match any query, including the push protocols of the
services in `push`. -/
def discoverFeatures (request : Message) (maxReceiveBytes : ℕ) (push : List Store.Service) :
    Task (Except Problem Message) :=
  match (request.body.get "queries").bind Value.asArray with
  | none => return .error .invalidBody
  | some queries =>
    match disclosures maxReceiveBytes push queries with
    | none => return .error .invalidBody
    | some disclosures => do
      let disclose ← newMessage discloseType (.object [("disclosures", .array disclosures)])
      return .ok (disclose.replyTo request)

/-- What a protocol handler decided. -/
inductive Handled
  | reply (message : Message)
  | problem (problem : Problem)
  | nothing
  deriving DecidableEq

end Dispatch
