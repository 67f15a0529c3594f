import AlmenaMediator.Didcomm.Primitives

/-!
# DIDComm plaintext messages

`message.rs`: building messages, and the structural checks of the spec.
-/

namespace Didcomm

variable (prim : Primitives)

/-- Media type of a DIDComm plaintext message. -/
def plaintextTyp : String := "application/didcomm-plain+json"

/-- Media types may omit the `application/` prefix. -/
def mediaTypeIs (value expected : String) : Bool :=
  value == expected ||
    (startsWith expected "application/" &&
      value == String.ofList (expected.toList.drop "application/".toList.length))

/-- `to` and `from` hold DIDs or DID URLs without a fragment. -/
def checkDid (value header : String) : Result Unit :=
  if !startsWith value "did:" || containsChar value '#' then
    .error (.malformed (header ++ " must be a DID without fragment: " ++ value))
  else .ok ()

namespace Attachment

def withData (data : AttachmentData) : Attachment :=
  { id := none, description := none, filename := none, mediaType := none, format := none,
    lastmodTime := none, byteCount := none, data := data }

/-- An attachment carrying inline JSON. -/
def ofJson (value : Value) : Attachment :=
  withData { jws := none, hash := none, links := none, base64 := none, json := some value }

/-- An attachment carrying inline bytes, base64url-encoded. -/
def ofBytes (bytes : Bytes) : Attachment :=
  withData { jws := none, hash := none, links := none, base64 := some (b64Encode bytes),
             json := none }

def withId (attachment : Attachment) (id : String) : Attachment :=
  { attachment with id := some id }

def withMediaType (attachment : Attachment) (mediaType : String) : Attachment :=
  { attachment with mediaType := some mediaType }

/-- Unreserved URI characters. -/
def unreserved (c : Char) : Bool := c.isAlphanum || "-._~".toList.contains c

def validate (attachment : Attachment) : Result Unit :=
  let data := attachment.data
  if attachment.id.any fun id => !id.toList.all unreserved then
    .error (.malformed "attachment id must be unreserved URI characters")
  else if data.jws.isNone && data.hash.isNone && data.links.isNone && data.base64.isNone &&
      data.json.isNone then
    .error (.malformed "attachment without data")
  else if (data.links.any fun l => !l.isEmpty) && data.hash.isNone then
    .error (.malformed "linked attachment without hash")
  else .ok ()

end Attachment

namespace Message

/-- A new message with a fresh `id` and `created_time` set to now. -/
def new (id : String) (now : ℕ) (type_ : String) (body : Value) : Message :=
  { id := id, type_ := type_, typ := none, from_ := none, to_ := none, thid := none, pthid := none,
    createdTime := some now, expiresTime := none, body := body, attachments := none,
    fromPrior := none, extraHeaders := [] }

/-- The builder `from`. -/
def withFrom (m : Message) (did : String) : Message := { m with from_ := some did }

/-- The builder `to`. -/
def withTo (m : Message) (dids : List String) : Message := { m with to_ := some dids }

/-- The thread id: `thid`, or `id` when absent. -/
def threadId (m : Message) : String := m.thid.getD m.id

/-- Makes this message a reply in the thread of `parent`. -/
def replyTo (m parent : Message) : Message :=
  { m with thid := some parent.threadId, pthid := parent.pthid }

/-- Adds an attachment at the end. -/
def attachment (m : Message) (a : Attachment) : Message :=
  { m with attachments := some (m.attachments.getD [] ++ [a]) }

/-- The builder `header`. -/
def header (m : Message) (name : String) (value : Value) : Message :=
  match Value.set name value (.object m.extraHeaders) with
  | .object members => { m with extraHeaders := members }
  | _ => m

/-- Whether `expires_time` has passed at `now` (epoch seconds). -/
def isExpiredAt (m : Message) (now : ℕ) : Bool := m.expiresTime.any fun t => t ≤ now

/-- Structural checks from the spec: required headers, DID (not DID URL) addresses, object body and
attachment rules. -/
def validate (m : Message) : Result Unit := do
  if m.id = "" then .error (.malformed "message without id")
  if m.type_ = "" then .error (.malformed "message without type")
  if !m.body.isObject then .error (.malformed "body must be a JSON object")
  if let some typ := m.typ then
    if !mediaTypeIs typ plaintextTyp then .error (.malformed ("plaintext with typ " ++ typ))
  if let some did := m.from_ then checkDid did "from"
  (m.to_.getD []).forM fun did => checkDid did "to"
  (m.attachments.getD []).forM Attachment.validate

/-- JSON with `typ` set to the plaintext media type. -/
def toPlaintextJson (m : Message) : String :=
  prim.messageText { m with typ := some plaintextTyp }

end Message

end Didcomm
