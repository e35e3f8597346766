import Mathlib.Data.Nat.Basic

/-!
# JSON-RPC 2.0 values

Decoded JSON as Go's `encoding/json` produces it with `UseNumber`, and the request
and error objects of package `jsonrpcv2`.
-/

namespace EspressoProxy.JsonRpc

/-- A decoded JSON value. Numbers keep their literal, and the members of an object
are listed in the order in which the program ranges over them. A Go `nil` is
`null`. -/
inductive Json where
  | null
  | bool (value : Bool)
  | number (literal : String)
  | string (text : String)
  | array (items : List Json)
  | object (members : List (String × Json))
deriving Inhabited, Repr

/-- The identifier of a request. A notification carries none, which is different
from an explicit `null`. Nothing restricts the value to strings and numbers. -/
inductive ID where
  | notification
  | value (value : Json)
deriving Repr

def ID.null : ID := .value .null

/-- A JSON-RPC request with the members the standard does not name. -/
structure Request where
  id : ID
  method : String
  params : Json
  extraFields : List (String × Json)
deriving Repr

/-- The value of the member `jsonrpc`. -/
def version : String := "2.0"

def codeParseError : Int := -32700
def codeInvalidRequest : Int := -32600
def codeInternalError : Int := -32603

/-- The error object that is reported to a client. -/
structure Error where
  code : Int
  message : String
deriving DecidableEq, Repr

end EspressoProxy.JsonRpc
