import LedgerGovernance.Json.Reader
import LedgerGovernance.Schema.Request
import LedgerGovernance.Service
import LedgerGovernance.Web.Path
import LedgerGovernance.Web.Reply
import LedgerGovernance.Web.Route
import LedgerGovernance.Web.View

/-! Requests to the service. The account in the header of a request is judged
first, then the route, the body, and the parameters; an action needs a caller,
which is asked for when everything else is in order. A path that is not a single
line is known only to the routes: where none of them takes its line ends as part
of a parameter, the request is refused without an id, a caller or a log line. -/

namespace LedgerGovernance

/-! ## Requests -/

structure Request where
  method : String
  target : Text
  accountId : Option Text := none
  requestId : Option Text := none
  contentType : Option Text := none
  body : Text := []
deriving Repr

namespace Request

/-- The methods whose names count in any letter case. -/
def caselessMethods : List String :=
  ["DELETE", "GET", "HEAD", "OPTIONS", "POST", "PUT"]

/-- The method that a request asks for. -/
def verb (request : Request) : String :=
  let capitals := request.method.toUpper
  if caselessMethods.contains capitals then capitals else request.method

/-- The value of a header, without the blanks around it. -/
def header (text : Text) : Text :=
  Text.trim Json.isSpace text

def path (request : Request) : Text :=
  Path.ofTarget request.target

/-- The path under which the account of a request counts. -/
def isApi (request : Request) : Bool :=
  match Path.segments request.path with
  | [] :: first :: _ => first == "api".toList
  | _ => false

/-- A request id of its own counts when it is printable, has no blanks and is not
too long. -/
def ownId? (request : Request) : Option Text :=
  (request.requestId.map header).filter fun id =>
    !id.isEmpty && id.length ≤ 128 && id.all fun character =>
      '!' ≤ character && character ≤ '~'

/-- A `name=value` behind a content type. -/
def isTypeParameter (text : Text) : Bool :=
  let isNameCharacter := fun (character : Char) =>
    character.isAlphanum || character == '-'
  let text := text.dropWhile Text.isBlank
  let name := text.takeWhile isNameCharacter
  match text.dropWhile isNameCharacter with
  | '=' :: value => !name.isEmpty && !value.isEmpty
  | _ => false

/-- `json`, or a name that ends in `+json`. -/
def isJsonSubtype (subtype : Text) : Bool :=
  subtype == "json".toList ||
    match Text.withoutEnding? "+json".toList subtype with
    | some name =>
        !name.isEmpty && name.all fun character =>
          character.isLower || character == '-' || character == '.'
    | none => false

def isJsonType (contentType : Text) : Bool :=
  match contentType.splitOn ';' with
  | media :: parameters =>
      (match Text.withoutStem? "application/".toList media with
        | some subtype => isJsonSubtype subtype
        | none => false)
        && parameters.all isTypeParameter
  | [] => false

example : isJsonType "application/vnd.api+json; charset=utf-8".toList := by decide

example : ¬ isJsonType "application/json;charset".toList := by decide

/-- A text without the byte order mark in front of it. -/
def withoutMark : Text → Text
  | '\ufeff' :: rest => rest
  | text => text

/-- The value of a body. A body of another type than JSON counts as an empty
object. Up to two byte order marks in front of the JSON text do not count: one is
dropped from the bytes, and one from the text that they stand for. -/
def bodyValue (request : Request) : Except RequestFailure Json :=
  if (request.contentType.map header).any isJsonType then
    match Json.read? (withoutMark (withoutMark request.body)) with
    | some value => .ok value
    | none => .error .malformedBody
  else
    .ok (.object [])

end Request

/-! ## Answering -/

structure App (σ : Type) where
  service : Service σ
  /-- The time of the clock on the wall, as text. -/
  wallClock : StateM σ String

/-- The id that a response names. -/
inductive ResponseId where
  /-- The request brought it. -/
  | own (id : Text)
  /-- It is still to be made up. -/
  | fresh
  /-- The response names none. -/
  | absent
deriving DecidableEq, Repr

structure Response where
  reply : Reply
  requestId : ResponseId
deriving Repr

abbrev Attempt (σ : Type) := ExceptT RequestFailure (StateM σ)

namespace App

variable {σ : Type} (app : App σ)

/-! ### Parts of a request -/

def call {α : Type} (call : Call σ α) : Attempt σ α := ExceptT.mk do
  match ← call.run with
  | .ok value => return .ok value
  | .error interruption => return .error (.interrupted interruption)

def requireCaller (caller : Option Account) : Attempt σ Account :=
  match caller with
  | some caller => return caller
  | none => throw .callerMissing

def body {α : Type} (request : Request) (judge : Option Json → Except (List Issue) α) :
    Attempt σ α := do
  let value ← liftExcept request.bodyValue
  match judge (some value) with
  | .ok parsed => return parsed
  | .error issues => throw (.invalidBody issues)
where
  liftExcept {β : Type} (result : Except RequestFailure β) : Attempt σ β :=
    ExceptT.mk (return result)

def parameter {α : Type} (schema : Schema α) (name : String) (segment : Text) :
    Attempt σ α :=
  match schema (some (.string (String.ofList (Path.parameter segment)))) with
  | .accepted value => return value
  | .flawed (problem :: _) | .rejected problem => throw (.invalidParameter name problem)
  | .flawed [] => throw (.invalidParameter name .noAlternative)

/-! ### Routes -/

def answer (request : Request) (caller : Option Account) : Route → Attempt σ Reply
  | .health => do
      let view ← call app.service.record
      return {
        status := 200
        body := .object [
          ("status", "ok"),
          ("record", .object [("bytes", view.bytes), ("capacity", view.capacity)]),
          ("timestamp", .string (← app.wallClock))] }
  | .record => do
      let view ← call app.service.record
      return Reply.data (.object [
        ("record", String.ofList view.record),
        ("bytes", view.bytes),
        ("capacity", view.capacity)]) 200
  | .members => do
      let views ← call app.service.members
      return Reply.data (.array (views.map MemberView.json)) 200
  | .register => do
      let caller ← requireCaller caller
      let view ← call (app.service.selfRegister caller)
      return Reply.data view.json 201
  | .setPower account => do
      let power ← body request Schema.votingPowerBody
      let account ← parameter Schema.account "account" account
      let caller ← requireCaller caller
      let view ← call (app.service.setVotingPower caller account power)
      return Reply.data view.json 200
  | .grantRole account => do
      let role ← body request Schema.roleBody
      let account ← parameter Schema.account "account" account
      let caller ← requireCaller caller
      let view ← call (app.service.grantRole caller account role.bit)
      return Reply.data view.json 200
  | .revokeRole account role => do
      let account ← parameter Schema.account "account" account
      let role ← parameter Schema.role "role" role
      let caller ← requireCaller caller
      let view ← call (app.service.revokeRole caller account role.bit)
      return Reply.data view.json 200
  | .delegate => do
      let delegatee ← body request Schema.delegateeBody
      let caller ← requireCaller caller
      call (app.service.delegate caller delegatee)
      let view ← call (app.service.member? delegatee)
      return Reply.data (.object [
        ("delegator", caller.text),
        ("delegatee", delegatee.text),
        ("delegateeMember", Json.ofOption MemberView.json view)]) 200
  | .propose => do
      let description ← body request Schema.descriptionBody
      let caller ← requireCaller caller
      let view ← call (app.service.propose caller (description.map fun hash => (hash : Number)))
      return Reply.data view.json 201
  | .proposals => do
      let views ← call app.service.proposals
      return Reply.data (.array (views.map ProposalView.json)) 200
  | .proposal id => do
      let id ← parameter Schema.id "id" id
      let view ← call (app.service.proposal id)
      return Reply.data view.json 200
  | .vote id => do
      let support ← body request Schema.supportBody
      let id ← parameter Schema.id "id" id
      let caller ← requireCaller caller
      let view ← call (app.service.castVote caller id support)
      return Reply.data view.json 200
  | .submitIntent id => do
      let support ← body request Schema.supportBody
      let id ← parameter Schema.id "id" id
      let caller ← requireCaller caller
      call (app.service.submitVoteIntent caller id support)
      return Reply.data (.object [
        ("proposalId", id), ("voter", caller.text), ("support", support)]) 201
  | .snapshot id => do
      let account ← body request Schema.accountBody
      let id ← parameter Schema.id "id" id
      let caller ← requireCaller caller
      let account := account.getD caller
      let power ← call (app.service.snapshot caller id account)
      return Reply.data (.object [
        ("proposalId", id),
        ("account", account.text),
        ("votingPower", Json.amount power)]) 200
  | .queue id => do
      let id ← parameter Schema.id "id" id
      let caller ← requireCaller caller
      let view ← call (app.service.queue caller id)
      return Reply.data view.json 200
  | .execute id => do
      let id ← parameter Schema.id "id" id
      let caller ← requireCaller caller
      let view ← call (app.service.execute caller id)
      return Reply.data view.json 200
  | .cancel id => do
      let id ← parameter Schema.id "id" id
      let caller ← requireCaller caller
      let view ← call (app.service.cancel caller id)
      return Reply.data view.json 200
  | .operation id => do
      let id ← parameter Schema.id "id" id
      let view ← call (app.service.operation id)
      return Reply.data view.json 200

/-! ### Requests -/

/-- The account that a request comes from, where its path makes it count. -/
def callerOf (request : Request) : Except RequestFailure (Option Account) :=
  match request.isApi, request.accountId with
  | true, some header =>
      match Account.ofHex? (Request.header header) with
      | some account => .ok (some account)
      | none => .error .malformedCaller
  | _, _ => .ok none

/-- A request for the head of a reply takes the route of one for the whole. -/
def route? (request : Request) : Option Route :=
  let segments := ((Path.segments request.path).drop 1).map String.ofList
  Route.of? (if request.verb = "HEAD" then "GET" else request.verb) segments

def noRoute (request : Request) : RequestFailure :=
  .noRoute request.verb (String.ofList request.path)

/-- Whether a request is attended to, if only to find that no route leads to it. -/
def isAttended (request : Request) : Bool :=
  (route? request).isSome || Path.isLine request.path

/-- The caller and the reply. -/
def serve (request : Request) : StateM σ (Option Account × Reply) := do
  match callerOf request with
  | .error failure => return (none, failure.reply)
  | .ok caller =>
      match route? request with
      | none => return (caller, (noRoute request).reply)
      | some route =>
          match ← (app.answer request caller route).run with
          | .ok reply => return (caller, reply)
          | .error failure => return (caller, failure.reply)

/-- The reply as it is sent; one to a request for its head has no body. -/
def sent (request : Request) (reply : Reply) : Reply :=
  if request.verb = "HEAD" then { reply with body := .null } else reply

/-- Answers a request, and logs it if it is attended to. -/
def respond (request : Request) : StateM σ Response := do
  if isAttended request then
    let (caller, reply) ← app.serve request
    app.service.log (.requestServed request.verb (String.ofList request.path)
      reply.status caller)
    let requestId := match request.ownId? with
      | some id => ResponseId.own id
      | none => ResponseId.fresh
    return { reply := sent request reply, requestId }
  else
    return { reply := sent request (noRoute request).reply, requestId := .absent }

end App

end LedgerGovernance
