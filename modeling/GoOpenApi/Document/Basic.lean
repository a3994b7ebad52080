import GoOpenApi.Schema.Basic

/-!
OpenAPI documents.
-/

namespace GoOpenApi

structure Info where
  title : String
  version : String
  description : Option String

structure Server where
  url : String
  description : Option String
  deriving DecidableEq

structure Parameter where
  name : String
  location : String
  required : Bool
  schema : Schema
  description : Option String

/-- The content of a body in one media type. -/
structure MediaType where
  schema : Schema

structure RequestBody where
  description : Option String
  required : Bool
  content : Dict MediaType

structure Header where
  description : Option String
  schema : Schema

structure Response where
  description : String
  headers : Option (Dict Header)
  content : Option (Dict MediaType)

structure Operation where
  tags : Option (List String)
  summary : Option String
  description : Option String
  operationId : Option String
  deprecated : Option Bool
  parameters : Option (List Parameter)
  requestBody : Option RequestBody
  responses : Dict Response

inductive Verb where
  | get | post | put | delete | patch | options | head
  deriving DecidableEq, Repr

namespace Verb

def all : List Verb := [get, post, put, delete, patch, options, head]

def label : Verb → String
  | get => "get" | post => "post" | put => "put" | delete => "delete" | patch => "patch"
  | options => "options" | head => "head"

def name : Verb → String
  | get => "GET" | post => "POST" | put => "PUT" | delete => "DELETE" | patch => "PATCH"
  | options => "OPTIONS" | head => "HEAD"

def ofName? (s : String) : Option Verb := all.find? (·.name == s)

end Verb

structure PathItem where
  get : Option Operation := none
  post : Option Operation := none
  put : Option Operation := none
  delete : Option Operation := none
  patch : Option Operation := none
  options : Option Operation := none
  head : Option Operation := none

namespace PathItem

def at? (item : PathItem) : Verb → Option Operation
  | .get => item.get
  | .post => item.post
  | .put => item.put
  | .delete => item.delete
  | .patch => item.patch
  | .options => item.options
  | .head => item.head

def set (item : PathItem) (o : Operation) : Verb → PathItem
  | .get => { item with get := some o }
  | .post => { item with post := some o }
  | .put => { item with put := some o }
  | .delete => { item with delete := some o }
  | .patch => { item with patch := some o }
  | .options => { item with options := some o }
  | .head => { item with head := some o }

theorem at?_set (item : PathItem) (o : Operation) (v w : Verb) :
    (item.set o v).at? w = if w = v then some o else item.at? w := by
  cases v <;> cases w <;> rfl

end PathItem

structure Components where
  schemas : Option (Dict Schema)

structure Document where
  openapi : String
  info : Info
  servers : Option (List Server)
  paths : Dict PathItem
  components : Option Components

end GoOpenApi
