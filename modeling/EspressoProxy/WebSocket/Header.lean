import EspressoProxy.Http.Header

/-!
# The fields of the handshake with upstream

`CloneRequestHeadersForProxy` and the configuration with which `ReverseProxy.Upgrade` dials.
The clone is built in a loop over a map, so its fields come in any order; it grows by one
value at a time. `forwards_handshake_fields` says what upstream is told in the end.
-/

namespace EspressoProxy.WebSocket

open EspressoProxy.Semantics EspressoProxy.Http

def headerHost : String := "Host"
def headerOrigin : String := "Origin"
def headerUpgrade : String := "Upgrade"
def headerConnection : String := "Connection"
def headerSecWebSocketKey : String := "Sec-Websocket-Key"
def headerSecWebSocketVersion : String := "Sec-Websocket-Version"
def headerSecWebSocketProtocol : String := "Sec-Websocket-Protocol"
def headerSecWebSocketExtensions : String := "Sec-Websocket-Extensions"

/-- `ShouldPruneForProxy`. The field `Sec-Websocket-Accept` is not among its cases. -/
def shouldPruneForProxy (name : String) : Bool :=
  [headerUpgrade, headerHost, headerOrigin, headerSecWebSocketKey, headerSecWebSocketVersion,
    headerSecWebSocketProtocol, headerSecWebSocketExtensions, headerConnection].contains
    (canonicalMIMEHeaderKey name)

/-- An entry of a header map. -/
abbrev Field := (_ : String) × List String

/-- The inner loop: `Add` for each value. -/
def addValues (cloned : Header) (name : String) (values : List String) : Header :=
  values.foldl (fun cloned value => cloned.add name value) cloned

/-- One turn of the outer loop. -/
def cloneField (cloned : Header) (field : Field) : Header :=
  if shouldPruneForProxy field.1 then cloned else addValues cloned field.1 field.2

/-- `CloneRequestHeadersForProxy`, on the entries in the order in which `range` visits them. -/
def cloneRequestHeadersForProxy (visited : List Field) : Header := visited.foldl cloneField ∅

structure DialerConfig where
  headers : Header := ∅
  subProtocols : List String := []

abbrev DialerOption := DialerConfig → DialerConfig

def setDialerHeaders (headers : Header) : DialerOption := fun config => { config with headers }

def setDialerSubProtocols (subProtocols : List String) : DialerOption :=
  fun config => { config with subProtocols }

/-- `applyOptionsToExistingConfig`. -/
def applyOptions (config : DialerConfig) (options : List DialerOption) : DialerConfig :=
  options.foldl (fun config option => option config) config

/-- The configuration in `coderDialer.Dial`: the options of the dialer, then those of the
call. -/
def dialConfig (dialer options : List DialerOption) : DialerConfig :=
  applyOptions (applyOptions {} dialer) options

/-- The options with which `Upgrade` calls `Dial`, after the client was upgraded to a
subprotocol. -/
def upgradeOptions (visited : List Field) (subProtocol : String) : List DialerOption :=
  [setDialerHeaders (cloneRequestHeadersForProxy visited),
    setDialerSubProtocols (if subProtocol = "" then [] else [subProtocol])]

/-! ### The loops -/

theorem shouldPruneForProxy_congr {name other : String}
    (same : canonicalMIMEHeaderKey name = canonicalMIMEHeaderKey other) :
    shouldPruneForProxy name = shouldPruneForProxy other := by
  unfold shouldPruneForProxy
  rw [same]

theorem values_addValues (cloned : Header) (name key : String) (values : List String) :
    (addValues cloned name values).values key =
      if canonicalMIMEHeaderKey key = canonicalMIMEHeaderKey name then
        cloned.values key ++ values
      else cloned.values key := by
  induction values generalizing cloned with
  | nil => simp [addValues]
  | cons value rest inductionHypothesis =>
      have unfolded : addValues cloned name (value :: rest) =
          addValues (cloned.add name value) name rest := rfl
      rw [unfolded, inductionHypothesis, Header.values_add]
      by_cases same : canonicalMIMEHeaderKey key = canonicalMIMEHeaderKey name
      · have read : cloned.values name = cloned.values key := by
          unfold Header.values
          rw [same]
        simp [same, read]
      · simp [same]

/-- One turn of the outer loop appends the values of its field, unless the field is pruned. -/
theorem values_cloneField (cloned : Header) (field : Field) (key : String) :
    (cloneField cloned field).values key =
      if canonicalMIMEHeaderKey key = canonicalMIMEHeaderKey field.1 ∧
          shouldPruneForProxy key = false then
        cloned.values key ++ field.2
      else cloned.values key := by
  unfold cloneField
  by_cases same : canonicalMIMEHeaderKey key = canonicalMIMEHeaderKey field.1
  · rw [← shouldPruneForProxy_congr same]
    cases pruned : shouldPruneForProxy key with
    | true => simp
    | false => simp [values_addValues, same]
  · split
    · simp [same]
    · simp [values_addValues, same]

/-- After the loop a field that is not pruned holds what it held before, then the values of
every entry visited under its name. -/
theorem values_foldl_cloneField (visited : List Field) (cloned : Header) (key : String)
    (canonical : ∀ field ∈ visited, canonicalMIMEHeaderKey field.1 = field.1)
    (forwarded : shouldPruneForProxy key = false) :
    (visited.foldl cloneField cloned).values key =
      cloned.values key ++ (visited.lookupAll (canonicalMIMEHeaderKey key)).flatten := by
  induction visited generalizing cloned with
  | nil => simp
  | cons field rest inductionHypothesis =>
      have spelled : canonicalMIMEHeaderKey field.1 = field.1 := canonical field (by simp)
      rw [List.foldl_cons,
        inductionHypothesis _ fun other member => canonical other (List.mem_cons_of_mem _ member),
        values_cloneField, spelled]
      by_cases same : canonicalMIMEHeaderKey key = field.1
      · obtain ⟨name, values⟩ := field
        obtain rfl : canonicalMIMEHeaderKey key = name := same
        rw [List.lookupAll_cons_eq]
        simp [forwarded]
      · rw [List.lookupAll_cons_ne _ _ same]
        simp [same]

/-- A pruned field is not in the clone, under any spelling. -/
theorem values_foldl_cloneField_of_pruned (visited : List Field) (cloned : Header)
    (key : String) (pruned : shouldPruneForProxy key = true) :
    (visited.foldl cloneField cloned).values key = cloned.values key := by
  induction visited generalizing cloned with
  | nil => rfl
  | cons field rest inductionHypothesis =>
      rw [List.foldl_cons, inductionHypothesis, values_cloneField]
      simp [pruned]

/-- The fields of the connection itself, which the dial with upstream sets anew. -/
theorem shouldPruneForProxy_iff (key : String) :
    shouldPruneForProxy key = true ↔ canonicalMIMEHeaderKey key ∈
      ["Upgrade", "Host", "Origin", "Sec-Websocket-Key", "Sec-Websocket-Version",
        "Sec-Websocket-Protocol", "Sec-Websocket-Extensions", "Connection"] :=
  List.contains_iff_mem

theorem values_empty (key : String) : Header.values ∅ key = [] := by
  simp [Header.values]

/-- In whatever order the loop visits the fields of a request, upstream is dialed with
exactly its fields that are not pruned, each with all its values in their order, and with the
subprotocol that the client was given. -/
theorem forwards_handshake_fields (header : Header) (visited : List Field)
    (ranged : visited.Perm header.entries)
    (canonical : ∀ field ∈ header.entries, canonicalMIMEHeaderKey field.1 = field.1)
    (subProtocol : String) :
    (∀ key, (dialConfig [] (upgradeOptions visited subProtocol)).headers.values key =
      if canonicalMIMEHeaderKey key ∈ ["Upgrade", "Host", "Origin", "Sec-Websocket-Key",
          "Sec-Websocket-Version", "Sec-Websocket-Protocol", "Sec-Websocket-Extensions",
          "Connection"] then []
      else header.values key) ∧
    (∀ name, name ∈ (dialConfig [] (upgradeOptions visited subProtocol)).subProtocols ↔
      name = subProtocol ∧ subProtocol ≠ "") := by
  refine ⟨fun key => ?_, fun name => ?_⟩
  · change (visited.foldl cloneField ∅).values key = _
    cases pruned : shouldPruneForProxy key with
    | true =>
        rw [values_foldl_cloneField_of_pruned visited ∅ key pruned, values_empty,
          if_pos ((shouldPruneForProxy_iff key).mp pruned)]
    | false =>
        rw [if_neg fun listed => Bool.noConfusion
          (pruned.symm.trans ((shouldPruneForProxy_iff key).mpr listed))]
        have distinct : visited.NodupKeys :=
          (List.perm_nodupKeys ranged).mpr header.nodupKeys
        have spelled : ∀ field ∈ visited, canonicalMIMEHeaderKey field.1 = field.1 :=
          fun field member => canonical field (ranged.mem_iff.mp member)
        rw [values_foldl_cloneField visited ∅ key spelled pruned, values_empty,
          List.lookupAll_eq_dlookup _ distinct, List.perm_dlookup _ distinct ranged]
        -- the keys of a map are distinct, so at most one entry was visited under the name
        change _ = (header.entries.dlookup (canonicalMIMEHeaderKey key)).getD []
        cases header.entries.dlookup (canonicalMIMEHeaderKey key) with
        | none => simp
        | some values => simp
  · change name ∈ (if subProtocol = "" then [] else [subProtocol]) ↔ _
    by_cases none : subProtocol = ""
    · simp [none]
    · simp [none]

/-- The fields of a browser's handshake with a session cookie. -/
def sampleHandshake : Header :=
  ((Header.set ∅ "Cookie" "session=1").add "cookie" "theme=dark").set headerOrigin "https://app"

/-- Visited in the other order: the cookies are forwarded, the origin is not. -/
theorem forwards_handshake_cookies :
    (dialConfig [] (upgradeOptions sampleHandshake.entries.reverse "")).headers.values "Cookie" =
      ["session=1", "theme=dark"] ∧
    (dialConfig [] (upgradeOptions sampleHandshake.entries.reverse "")).headers.values
      headerOrigin = [] := by
  have forwarded := (forwards_handshake_fields sampleHandshake sampleHandshake.entries.reverse
    (List.reverse_perm _) (by decide +kernel) "").1
  rw [forwarded, forwarded]
  decide +kernel

end EspressoProxy.WebSocket
