import GoOpenApi.Document.Basic
import GoOpenApi.Document.Status
import GoOpenApi.Schema.Generator
import GoOpenApi.Service.Basic

/-!
Making documents from services. A method with a directive for its HTTP method is an operation at
its own path; any other is a call in a JSON-RPC envelope.
-/

namespace GoOpenApi

/-- A document without its components. -/
structure Builder where
  info : Info
  servers : List Server
  paths : Dict PathItem

/-- The directives of all services; those of later ones win. -/
def Service.allDirectives (services : List Service) : Directives :=
  services.foldl (fun d s ↦ d.merge s.directives) []

/-- A server from an entry `url;description`; none without a URL. -/
def Server.ofEntry? (entry : List Char) : Option Server :=
  let (url, description) := match Text.cutList (· == ';') entry with
    | some (url, description) => (url, description)
    | none => (entry, [])
  let url := Text.trimList url
  let description := Text.trimList description
  if url.isEmpty then none
  else some ⟨String.ofList url,
    if description.isEmpty then none else some (String.ofList description)⟩

def Server.parseList (cs : List Char) : List Server :=
  (Text.splitList (· == '|') cs).filterMap Server.ofEntry?

def Server.parse (s : String) : List Server := parseList s.toList

def jsonType : String := "application/json"

def formType : String := "multipart/form-data"

def jsonContent (s : Schema) : Dict MediaType := [(jsonType, ⟨s⟩)]

def envelopeProperties : List (String × Schema) :=
  [("jsonrpc", (Schema.typed "string").described "2.0"), ("id", .empty)]

/-- An envelope that carries a payload in a property. -/
def envelope (key : String) (payload? : Option Schema) : Schema :=
  .record (envelopeProperties ++ (payload?.map (key, ·)).toList)

/-- The error of an envelope; its data are optional. -/
def envelopeError : Schema :=
  let error := Schema.record
    [("code", .formatted "integer" "int32"), ("message", .typed "string")]
  { error with properties := error.properties.map (Dict.insert "data" .empty) }

def errorEnvelope : Schema := .record (envelopeProperties ++ [("error", envelopeError)])

namespace Registry

/-- The schema has no content: it is an empty object, or refers to one or to nothing. -/
def isVoid (r : Registry) (s : Schema) : Bool :=
  s.isEmptyObject || (s.reference.isSome && ((r.component? s).isNone || r.refersToEmpty s))

/-- The media types that have content. -/
def clear (r : Registry) (content : Dict MediaType) : Option (Dict MediaType) :=
  match content.filter fun (_, media) ↦ !r.isVoid media.schema with
  | [] => none
  | content => some content

end Registry

namespace Generator

variable (p : Project)

def cleared (content : Dict MediaType) : Action Generator (Option (Dict MediaType)) := do
  return (← get).registry.clear content

/-- A reference, unless what it refers to is empty. -/
def unlessEmpty (s : Schema) : Action Generator (Option Schema) := do
  return if (← get).registry.refersToEmpty s then none else some s

def parameter (b : Binding) : Action Generator Parameter := do
  let s ← schema p b.type b.package
  return ⟨b.key, b.location.label, b.location = .path || !b.type.isPointer, s, none⟩

def parameters : List Binding → Action Generator (List Parameter)
  | [] => return []
  | b :: bs => do
    let first ← parameter p b
    return first :: (← parameters bs)

/-- All cookies travel in one header. -/
def headerOf (b : Binding) (s : Schema) : String × Header :=
  match b.location with
  | .cookie => ("Set-Cookie", ⟨some b.key, s⟩)
  | _ => (b.key, ⟨none, s⟩)

def headersOnto (package : String) (d : Dict Header) : List Binding →
    Action Generator (Dict Header)
  | [] => return d
  | b :: bs => do
    let s ← schema p b.type (if b.package.isEmpty then package else b.package)
    let (key, header) := headerOf b s
    headersOnto package (d.insert key header) bs

def headers (package : String) (bindings : List Binding) :
    Action Generator (Option (Dict Header)) := do
  match ← headersOnto p package [] bindings with
  | [] => return none
  | d => return some d

/-- The content of an error with a payload; none if the type has no declaration. -/
def payload (q : QualifiedName) : Action Generator (Option (Dict MediaType)) := do
  match ← onTables (Tables.resolve p (.qualified q.package q.name) q.package) with
  | .unresolved _ => return none
  | shape => return some (jsonContent (← materialize shape))

def propertiesOnto (package : String) (d : Dict Schema) : List Field →
    Action Generator (Dict Schema)
  | [] => return d
  | f :: fs => do
    match f.jsonName with
    | some key =>
      let s ← schema p f.type package
      propertiesOnto package (d.insert key s) fs
    | none => propertiesOnto package d fs

def form (package : String) (m : Endpoint) : Action Generator (Dict MediaType) := do
  let files := Dict.ofList (m.uploads.map fun (_, key) ↦ (key, Schema.formatted "string" "binary"))
  let properties ← propertiesOnto p package files m.bodyFields
  return [(formType, ⟨{ type := some "object", properties := some properties }⟩)]

/-- The responses that directives give for status codes with a known reason. -/
def overridesOnto (d : Dict Response) : List (Nat × ResponseOverride) →
    Action Generator (Dict Response)
  | [] => return d
  | (code, o) :: os => do
    match statusText? code, o with
    | some text, .payload q =>
      let content ← payload p q
      overridesOnto (d.insert (toString code) ⟨text, none, content⟩) os
    | some _, .text description =>
      overridesOnto (d.insert (toString code) ⟨description, none, none⟩) os
    | _, _ => overridesOnto d os

/-- The responses of a method with those of its directives. -/
def withErrors (m : Endpoint) (d : Dict Response) : Action Generator (Dict Response) := do
  let d ← overridesOnto p d m.responseOverrides
  match m.defaultError with
  | none => return d
  | some (.payload q) => return d.insert "default" ⟨"Generic error", none, ← payload p q⟩
  | some _ => return d.insert "default" ⟨"Generic error", none, none⟩

/-- The operation of a method without its body and responses. -/
def operation (s : Service) (m : Endpoint) : Action Generator Operation := do
  let ps ← parameters p m.bindings
  return {
    tags := some (m.tags s.name)
    summary := m.summary
    description := m.description
    operationId := some (s.lowerName ++ "." ++ m.camelName)
    deprecated := if m.isDeprecated then some true else none
    parameters := if ps.isEmpty then none else some ps
    requestBody := none
    responses := [] }

def rpcOperation (s : Service) (m : Endpoint) : Action Generator Operation := do
  let params ← container p m.requestName s.package m.bodyFields
  let result ← container p m.responseName s.package m.responseBodyFields
  let params ← unlessEmpty params
  let result ← unlessEmpty result
  let headers ← headers p s.package m.resultBindings
  let answer : Schema := { oneOf := some [envelope "result" result, errorEnvelope] }
  let response : Response :=
    ⟨(statusText? 200).getD "OK", headers, some (jsonContent answer)⟩
  return { ← operation p s m with
    requestBody := some ⟨none, true, jsonContent (envelope "params" params)⟩
    responses := [("200", response)] }

def successText (code : Int) : String :=
  (if 0 ≤ code then statusText? code.toNat else none).getD "Successful response"

def requestContent (s : Service) (m : Endpoint) :
    Action Generator (Option (Dict MediaType)) := do
  if m.uploads.isEmpty then
    cleared (jsonContent (← container p m.requestName s.package m.bodyFields))
  else return some (← form p s.package m)

def httpOperation (s : Service) (m : Endpoint) : Action Generator Operation := do
  let request ← requestContent p s m
  let response ← container p m.responseName s.package m.responseBodyFields
  let headers ← headers p s.package m.resultBindings
  let content ← cleared (jsonContent response)
  let success : Response := ⟨successText m.successCode, headers, content⟩
  let responses ← withErrors p m [(toString m.successCode, success)]
  return { ← operation p s m with
    requestBody := request.map fun content ↦ ⟨none, true, content⟩
    responses }

end Generator

namespace Builder

def initial : Builder where
  info := ⟨"Generated API", "1.0.0",
    some "API documentation generated from Go service interfaces"⟩
  servers := []
  paths := []

/-- The directives for a whole document applied, those that are present. -/
def withDirectives (d : Directives) (b : Builder) : Builder where
  info := {
    title := (d.text? "title").getD b.info.title
    version := (d.text? "version").getD b.info.version
    description := match d.text? "description" with
      | some text => some text
      | none => b.info.description }
  servers := match d.text? "servers" with
    | some text => Server.parse text
    | none => b.servers
  paths := b.paths

/-- The operation at a path and verb replaced. A path is kept even if no document can describe
the verb. -/
def insert (path verb : String) (o : Operation) (b : Builder) : Builder :=
  let item := (Dict.find? path b.paths).getD {}
  let item := match Verb.ofName? verb with
    | some verb => item.set o verb
    | none => item
  { b with paths := Dict.insert path item b.paths }

variable (p : Project)

def addMethod (s : Service) (m : Endpoint) (b : Builder) : Action Generator Builder := do
  if m.isHttp then
    return b.insert (Route.documented m.httpPath) m.httpMethod (← Generator.httpOperation p s m)
  else return b.insert m.rpcPath "POST" (← Generator.rpcOperation p s m)

/-- The methods added one after the other. The builder so far comes back with the fault that
stopped it. -/
def addMethods (s : Service) : List Endpoint → ExceptT Fault (StateM (Builder × Generator)) Unit
  | [] => return ()
  | m :: ms => do
    let (b, g) ← get
    match addMethod p s m b g with
    | (.ok b, g) => set (b, g); addMethods s ms
    | (.error fault, g) => set (b, g); throw fault

def addService (s : Service) : ExceptT Fault (StateM (Builder × Generator)) Unit :=
  addMethods p s s.methods

def document (b : Builder) (r : Registry) : Document where
  openapi := "3.0.0"
  info := b.info
  servers := if b.servers.isEmpty then none else some b.servers
  paths := b.paths
  components := if r.schemas.isEmpty then none else some ⟨some r.schemas⟩

end Builder

end GoOpenApi
