import EspressoProxy.Semantics.GoMap

/-!
# HTTP headers

The type `http.Header` with the methods that the proxy uses. A key is brought into its
canonical form first, as `textproto` does: a letter at the start or after a hyphen is upper
case, any other one lower case. A key with a character that no field name may have is left
as it is.
-/

namespace EspressoProxy.Http

open EspressoProxy.Semantics

/-- A character of a field name, by the table of `validHeaderFieldByte`. -/
def validHeaderFieldByte (char : Char) : Bool :=
  char.isAlphanum ||
    ['!', '#', '$', '%', '&', '\x27', '*', '+', '-', '.', '^', '_', '\x60', '|', '~'].contains char

/-- The loop of `canonicalMIMEHeaderKey`. -/
def canonicalCase (upper : Bool) : List Char → List Char
  | [] => []
  | char :: rest =>
      (if upper then char.toUpper else char.toLower) :: canonicalCase (char == '-') rest

/-- `textproto.CanonicalMIMEHeaderKey`. -/
def canonicalMIMEHeaderKey (key : String) : String :=
  if key.toList.all validHeaderFieldByte then String.ofList (canonicalCase true key.toList)
  else key

theorem canonicalMIMEHeaderKey_of_canonical {key : String}
    (canonical : canonicalCase true key.toList = key.toList) :
    canonicalMIMEHeaderKey key = key := by
  unfold canonicalMIMEHeaderKey
  split
  · rw [canonical, String.ofList_toList]
  · rfl

/-- The values of each field, under canonical keys. -/
abbrev Header := GoMap String (List String)

namespace Header

/-- The index expression with which the source asks whether a field is present. -/
def has (header : Header) (key : String) : Bool := (GoMap.get header key).isSome

/-- All values of a field. -/
def values (header : Header) (key : String) : List String :=
  (GoMap.get header (canonicalMIMEHeaderKey key)).getD []

/-- `Get`: the first value of a field, or the empty string. -/
def get (header : Header) (key : String) : String := (header.values key).headD ""

/-- `Set`: replace the values of a field by one. -/
def set (header : Header) (key value : String) : Header :=
  GoMap.set header (canonicalMIMEHeaderKey key) [value]

/-- `Add`: append a value to a field. -/
def add (header : Header) (key value : String) : Header :=
  GoMap.set header (canonicalMIMEHeaderKey key) (header.values key ++ [value])

/-- `Del`. -/
def del (header : Header) (key : String) : Header :=
  GoMap.delete header (canonicalMIMEHeaderKey key)

theorem values_set (header : Header) (key other value : String) :
    (header.set other value).values key =
      if canonicalMIMEHeaderKey key = canonicalMIMEHeaderKey other then [value]
      else header.values key := by
  unfold set
  rw [values, GoMap.get_set]
  split
  · rfl
  · rfl

theorem values_del (header : Header) (key other : String) :
    (header.del other).values key =
      if canonicalMIMEHeaderKey key = canonicalMIMEHeaderKey other then []
      else header.values key := by
  unfold del
  rw [values, GoMap.get_delete]
  split
  · rfl
  · rfl

theorem values_add (header : Header) (key other value : String) :
    (header.add other value).values key =
      if canonicalMIMEHeaderKey key = canonicalMIMEHeaderKey other then
        header.values other ++ [value]
      else header.values key := by
  unfold add
  rw [values, GoMap.get_set]
  split
  · rfl
  · rfl

end Header
end EspressoProxy.Http
