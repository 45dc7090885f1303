import LedgerClient.Config.File
import LedgerClient.Proofs.Frames
import Mathlib.Data.List.Forall2

namespace LedgerClient

variable {α : Type} {d : Document} {names : List String} {surplus : Bool} {name : String}
  {fields : List (Option Document)} {field : Option Document} {gone : List String → Bool}
  {members : List (Option String × Document)} {read : Document → Option α} {base value : α}

theorem documents_eq_map {items : List Json} :
    Json.documents items = items.map Json.document := by
  induction items with
  | nil => rw [Json.documents, List.map_nil]
  | cons item rest ih => rw [Json.documents, ih, List.map_cons]

theorem nullable?_of_ne_null (h : d ≠ .null) : d.nullable? read = (read d).map some := by
  unfold Document.nullable?
  split
  · exact absurd rfl h
  · rfl

theorem NodeEntry.ofDocument?_json (n : NodeEntry) :
    NodeEntry.ofDocument? false n.json.document = some n := by
  rw [NodeEntry.ofDocument?, NodeEntry.json, Json.fields?_document _ (by simp)]
  simp [List.lookup_cons, Json.document, Document.text?]

theorem ExecutionSettings.ofDocument?_json (e : ExecutionSettings) :
    ExecutionSettings.ofDocument? false e.json.document = some e := by
  obtain ⟨attempts, least, greatest, regenerate, nodes⟩ := e
  cases attempts with
  | none =>
    rw [ExecutionSettings.ofDocument?, ExecutionSettings.json, Json.fields?_document _ (by simp)]
    simp [List.lookup_cons, fieldOr, uint64?_natural, Json.document, Document.bool?]
  | some n =>
    have hnumber : (Json.natural n.toUInt64).document ≠ .null := by
      simp [Json.natural, Json.document]
    have hn : Document.nullable? Document.uint32? (Json.natural n.toUInt64).document =
        some (some n) := by
      rw [nullable?_of_ne_null hnumber, uint32?_natural, Option.map_some]
    rw [ExecutionSettings.ofDocument?, ExecutionSettings.json, Json.fields?_document _ (by simp)]
    simp [List.lookup_cons, fieldOr, uint64?_natural, hn, Json.document, Document.bool?]

theorem PenaltySettings.ofDocument?_json (p : PenaltySettings) :
    PenaltySettings.ofDocument? false p.json.document = some p := by
  rw [PenaltySettings.ofDocument?, PenaltySettings.json, Json.fields?_document _ (by simp)]
  simp [List.lookup_cons, fieldOr, uint64?_natural]

theorem TransportSettings.ofDocument?_json (t : TransportSettings) :
    TransportSettings.ofDocument? false t.json.document = some t := by
  rw [TransportSettings.ofDocument?, TransportSettings.json, Json.fields?_document _ (by simp)]
  simp [List.lookup_cons, fieldOr, uint64?_natural]

theorem ObservabilitySettings.ofDocument?_json (o : ObservabilitySettings) :
    ObservabilitySettings.ofDocument? false o.json.document = some o := by
  rw [ObservabilitySettings.ofDocument?, ObservabilitySettings.json,
    Json.fields?_document _ (by simp)]
  simp [List.lookup_cons, fieldOr, Json.document, Document.bool?, Document.text?]

theorem operatorOfDocument?_json (id : String) :
    operatorOfDocument? false (Json.record [("account_id", .text id)]).document = some id := by
  rw [operatorOfDocument?, Json.fields?_document _ (by simp)]
  simp [List.lookup_cons, Json.document, Document.text?]

theorem mapM_ofDocument?_json (nodes : List NodeEntry) :
    (nodes.map fun n => n.json.document).mapM (NodeEntry.ofDocument? false) = some nodes := by
  induction nodes with
  | nil => rfl
  | cons n rest ih =>
    rw [List.map_cons, List.mapM_cons, n.ofDocument?_json, ih]
    rfl

theorem Config.ofDocument?_json (c : Config) :
    Config.ofDocument? false c.json.document = some c := by
  obtain ⟨network, execution, penalty, transport, operator, observability⟩ := c
  have hnodes : (Json.list (network.map NodeEntry.json)).document =
      .list (network.map fun n => n.json.document) := by
    rw [Json.document, documents_eq_map, List.map_map]
    rfl
  have hread := mapM_ofDocument?_json network
  rw [Config.ofDocument?, Config.json, Json.fields?_document _ (by simp)]
  cases operator with
  | none =>
    have hoperator : Document.nullable? (operatorOfDocument? false) Json.null.document =
        some none := by
      rw [Json.document, Document.nullable?]
    simp [List.lookup_cons, fieldOr, hnodes, Document.items?, hread, hoperator,
      ExecutionSettings.ofDocument?_json, PenaltySettings.ofDocument?_json,
      TransportSettings.ofDocument?_json, ObservabilitySettings.ofDocument?_json]
  | some id =>
    have hoperator : Document.nullable? (operatorOfDocument? false)
        (Json.record [("account_id", .text id)]).document = some (some id) := by
      rw [nullable?_of_ne_null (by simp [Json.document]), operatorOfDocument?_json, Option.map_some]
    simp [List.lookup_cons, fieldOr, hnodes, Document.items?, hread, hoperator,
      ExecutionSettings.ofDocument?_json, PenaltySettings.ofDocument?_json,
      TransportSettings.ofDocument?_json, ObservabilitySettings.ofDocument?_json]

theorem itemsExact_of_forall {items : List Json} (h : ∀ j ∈ items, j.IsExact) :
    Json.ItemsExact items := by
  induction items with
  | nil => trivial
  | cons j rest ih => exact ⟨h j (by simp), ih fun k hk => h k (by simp [hk])⟩

/-- There are no doubles in a configuration. -/
theorem Config.isExact_json (c : Config) : c.json.IsExact := by
  obtain ⟨network, ⟨attempts, _, _, _, _⟩, penalty, transport, operator, observability⟩ := c
  have hnodes : Json.ItemsExact (network.map NodeEntry.json) := itemsExact_of_forall fun j hj => by
    obtain ⟨n, -, rfl⟩ := List.mem_map.mp hj
    simp [NodeEntry.json, Json.IsExact, Json.MembersExact]
  cases attempts <;> cases operator <;>
    simp [Config.json, ExecutionSettings.json, PenaltySettings.json, TransportSettings.json,
      ObservabilitySettings.json, Json.IsExact, Json.MembersExact, Json.natural, Number.isExact,
      hnodes]

theorem Config.ofJsonText?_print (c : Config) : Config.ofJsonText? c.json.print = some c := by
  rw [Config.ofJsonText?, (parse?_print c.isExact_json).1, Option.bind_some, c.ofDocument?_json]

mutual

/-- A document without some members of its records. A member is named by the keys on the way to it,
its own last. -/
def Document.without (gone : List String → Bool) : Document → Document
  | .record members => .record (Document.membersWithout gone members)
  | d => d

def Document.membersWithout (gone : List String → Bool) :
    List (Option String × Document) → List (Option String × Document)
  | [] => []
  | (none, d) :: rest => (none, d) :: Document.membersWithout gone rest
  | (some k, d) :: rest =>
    if gone [k] then Document.membersWithout gone rest
    else (some k, d.without fun path => gone (k :: path)) :: Document.membersWithout gone rest

end

/-- There is a member that these keys lead to. -/
def Document.Has : Document → List String → Prop
  | _, [] => True
  | .record members, k :: path => ∃ d, (some k, d) ∈ members ∧ d.Has path
  | _, _ :: _ => False

/-- What becomes of a field of a record when members are taken out. -/
def fieldWithout (gone : List String → Bool) (name : String) (field : Option Document) :
    Option Document :=
  if gone [name] then none else field.map (Document.without fun path => gone (name :: path))

mutual

theorem Document.without_of_none : (gone : List String → Bool) → (d : Document) →
    (∀ k path, gone (k :: path) = false) → d.without gone = d
  | gone, .record members, h => by
    rw [Document.without, Document.membersWithout_of_none gone members h]
  | _, .null, _ | _, .bool _, _ | _, .number _, _ | _, .text _, _ | _, .list _, _ => by
    rw [Document.without]
    simp

theorem Document.membersWithout_of_none : (gone : List String → Bool) →
    (members : List (Option String × Document)) → (∀ k path, gone (k :: path) = false) →
    Document.membersWithout gone members = members
  | _, [], _ => by rw [Document.membersWithout]
  | gone, (none, d) :: rest, h => by
    rw [Document.membersWithout, Document.membersWithout_of_none gone rest h]
  | gone, (some k, d) :: rest, h => by
    rw [Document.membersWithout, Document.membersWithout_of_none gone rest h,
      Document.without_of_none (fun path => gone (k :: path)) d fun j path => h k (j :: path)]
    simp [h]

end

theorem mapM_eq_some_iff_forall₂ {β : Type} {f : α → Option β} {xs : List α} {ys : List β} :
    xs.mapM f = some ys ↔ List.Forall₂ (fun x y => f x = some y) xs ys := by
  induction xs generalizing ys with
  | nil => simp [eq_comm]
  | cons x xs ih =>
    simp only [List.mapM_cons, Option.bind_eq_bind, Option.bind_eq_some_iff, Option.pure_def,
      Option.some.injEq, ih]
    cases ys <;> simp

/-- The members of one name are a field of a record if there is one of them at most. -/
def IsField (members : List (Option String × Document)) (name : String)
    (field : Option Document) : Prop :=
  members.filter (fun m => m.1 == some name) = field.toList.map fun d => (some name, d)

theorem fields?_record_iff : (Document.record members).fields? names surplus = some fields ↔
    (members.all fun m => m.1.isSome) = true ∧ List.Forall₂ (IsField members) names fields := by
  rw [Document.fields?]
  split
  next hnamed =>
    rw [and_iff_right hnamed, mapM_eq_some_iff_forall₂]
    refine iff_of_eq (congrArg (List.Forall₂ · names fields) (funext₂ fun name field => ?_))
    refine propext ?_
    unfold IsField
    split
    next h => cases field <;> simp [h]
    next k d h =>
      have hk : k = some name := by
        have hmem : (k, d) ∈ members.filter fun m => m.1 == some name := by simp [h]
        simpa using (List.mem_filter.mp hmem).2
      cases field <;> simp [h, hk]
    next hnone hone =>
      cases field with
      | none => simpa using hnone
      | some d => simpa using hone (some name) d
  next hunnamed => simp [hunnamed]

theorem all_membersWithout (h : (members.all fun m => m.1.isSome) = true) :
    ((Document.membersWithout gone members).all fun m => m.1.isSome) = true := by
  induction members with
  | nil => rw [Document.membersWithout, List.all_nil]
  | cons m rest ih =>
    obtain ⟨_ | k, d⟩ := m
    · simp at h
    · have hrest := ih (by simpa using h)
      rw [Document.membersWithout]
      split <;> simpa using hrest

theorem filter_membersWithout :
    (Document.membersWithout gone members).filter (fun m => m.1 == some name) =
      if gone [name] then []
      else (members.filter fun m => m.1 == some name).map fun m =>
        (m.1, m.2.without fun path => gone (name :: path)) := by
  induction members with
  | nil => simp [Document.membersWithout]
  | cons m rest ih =>
    obtain ⟨_ | k, d⟩ := m
    · simpa [Document.membersWithout] using ih
    · rw [Document.membersWithout]
      by_cases hk : k = name
      · subst hk
        split
        next hgone => simpa [hgone] using ih
        next hkept => simpa [hkept] using ih
      · split <;> simpa [hk] using ih

theorem IsField.without {field : Option Document} (h : IsField members name field) :
    IsField (Document.membersWithout gone members) name (fieldWithout gone name field) := by
  unfold IsField at h ⊢
  rw [filter_membersWithout, h]
  unfold fieldWithout
  split
  · simp
  · cases field <;> simp

theorem IsField.has {d' : Document} {path : List String} (h : IsField members name (some d'))
    (hhas : (Document.record members).Has (name :: path)) : d'.Has path := by
  obtain ⟨d, hmem, hd⟩ := hhas
  have hfilter : (some name, d) ∈ members.filter fun m => m.1 == some name := by simp [hmem]
  rw [h] at hfilter
  obtain rfl : d = d' := by simpa using hfilter
  exact hd

theorem length_fields? (h : d.fields? names surplus = some fields) :
    names.length = fields.length := by
  cases d with
  | record members => exact (fields?_record_iff.mp h).2.length_eq
  | list items =>
    rw [Document.fields?] at h
    split at h
    · cases h
      simp
    · cases h
  | _ => cases h

theorem fieldWithout_of_none (h : ∀ path, gone (name :: path) = false) :
    fieldWithout gone name field = field := by
  rw [fieldWithout, if_neg (by simp [h])]
  cases field with
  | none => rfl
  | some d => rw [Option.map_some, d.without_of_none _ fun k path => h (k :: path)]

/-- Each field is what becomes of it alone. A list has no members, so nothing is taken out of it. -/
theorem fields?_without (hgone : ∀ path, gone path = true → d.Has path)
    (h : d.fields? names surplus = some fields) :
    (d.without gone).fields? names surplus = some (List.zipWith (fieldWithout gone) names fields) := by
  cases d with
  | record members =>
    obtain ⟨hnamed, hfields⟩ := fields?_record_iff.mp h
    rw [Document.without, fields?_record_iff]
    refine ⟨all_membersWithout hnamed, ?_⟩
    clear h
    induction hfields with
    | nil => exact .nil
    | cons hfield _ ih => exact .cons hfield.without ih
  | list items =>
    have hkept : ∀ name path, gone (name :: path) = false := fun name path =>
      Bool.eq_false_iff.mpr fun hname => hgone _ hname
    have hself : List.zipWith (fieldWithout gone) names fields = fields := by
      have hlength := length_fields? h
      refine List.ext_getElem (by simp [hlength]) fun i hi hi' => ?_
      rw [List.getElem_zipWith, fieldWithout_of_none (hkept _)]
    rw [Document.without_of_none _ _ hkept, h, hself]
  | _ => cases h

/-- What keys lead to from a field is what they lead to with its name before them. -/
theorem has_of_fields? (h : d.fields? names surplus = some fields) :
    List.Forall₂ (fun name field => ∀ d' ∈ field, ∀ path, d.Has (name :: path) →
      Document.Has d' path) names fields := by
  cases d with
  | record members =>
    refine (fields?_record_iff.mp h).2.imp fun name field hfield d' hd path hhas => ?_
    rw [Option.mem_def.mp hd] at hfield
    exact hfield.has hhas
  | list items =>
    refine List.forall₂_iff_get.mpr ⟨length_fields? h, fun i hi hi' d' hd path hhas => ?_⟩
    cases hhas
  | _ => cases h

/-- A field that was read keeps its value or takes its default. -/
theorem fieldOr_fieldWithout {reset : α} (hbase : field = none → reset = base)
    (hread : ∀ d ∈ field, read d = some value →
      read (d.without fun path => gone (name :: path)) = some reset)
    (h : fieldOr base read field = some value) :
    fieldOr base read (fieldWithout gone name field) =
      some (if gone [name] then base else reset) := by
  unfold fieldWithout
  split
  · rfl
  · cases field with
    | none => rw [hbase rfl]; rfl
    | some d => exact hread d rfl h

/-- The same where nothing can be taken out of the value itself. -/
theorem fieldOr_fieldWithout_plain (hread : ∀ gone d, read (Document.without gone d) = read d)
    (h : fieldOr base read field = some value) :
    fieldOr base read (fieldWithout gone name field) =
      some (if gone [name] then base else value) := by
  refine fieldOr_fieldWithout (fun hnone => ?_) (fun d _ hd => (hread _ d).trans hd) h
  subst hnone
  exact (Option.some.inj h).symm

/-- The same of a section, out of which its own fields can be taken. -/
theorem fieldOr_fieldWithout_section {reset : (String → Bool) → α → α}
    (hbase : ∀ gone, reset gone base = base)
    (hread : ∀ (gone : List String → Bool) (d : Document) (value : α),
      (∀ path, gone path = true → d.Has path) → read d = some value →
      read (d.without gone) = some (reset (fun key => gone [key]) value))
    (hhas : ∀ d ∈ field, ∀ path, gone (name :: path) = true → Document.Has d path)
    (h : fieldOr base read field = some value) :
    fieldOr base read (fieldWithout gone name field) =
      some (if gone [name] then base else reset (fun key => gone [name, key]) value) := by
  refine fieldOr_fieldWithout (fun hnone => ?_) (fun d hd hvalue => ?_) h
  · subst hnone
    rw [← Option.some.inj h, hbase]
  · exact hread _ d value (hhas d hd) hvalue

theorem text?_without (gone : List String → Bool) (d : Document) :
    (d.without gone).text? = d.text? := by
  cases d <;> simp [Document.without, Document.text?]

theorem bool?_without (gone : List String → Bool) (d : Document) :
    (d.without gone).bool? = d.bool? := by
  cases d <;> simp [Document.without, Document.bool?]

theorem uint64?_without (gone : List String → Bool) (d : Document) :
    (d.without gone).uint64? = d.uint64? := by
  cases d <;> simp [Document.without, Document.uint64?]

theorem items?_without (gone : List String → Bool) (d : Document) :
    (d.without gone).items? = d.items? := by
  cases d <;> simp [Document.without, Document.items?]

theorem nullable?_uint32?_without (gone : List String → Bool) (d : Document) :
    (d.without gone).nullable? Document.uint32? = d.nullable? Document.uint32? := by
  cases d <;> simp [Document.without, Document.nullable?, Document.uint32?, Document.uint64?]

/-- The settings with the defaults in place of those whose keys are given. -/
def ExecutionSettings.reset (gone : String → Bool) (e : ExecutionSettings) : ExecutionSettings :=
  let base : ExecutionSettings := {}
  { maxAttempts := if gone "max_attempts" then base.maxAttempts else e.maxAttempts
    minBackoffMillis := if gone "min_backoff_ms" then base.minBackoffMillis else e.minBackoffMillis
    maxBackoffMillis := if gone "max_backoff_ms" then base.maxBackoffMillis else e.maxBackoffMillis
    regenerate := if gone "regenerate_transaction_id" then base.regenerate else e.regenerate
    maxNodes := if gone "max_nodes_per_request" then base.maxNodes else e.maxNodes }

def PenaltySettings.reset (gone : String → Bool) (p : PenaltySettings) : PenaltySettings :=
  let base : PenaltySettings := {}
  { minMillis := if gone "min_backoff_ms" then base.minMillis else p.minMillis
    maxMillis := if gone "max_backoff_ms" then base.maxMillis else p.maxMillis }

def TransportSettings.reset (gone : String → Bool) (t : TransportSettings) : TransportSettings :=
  let base : TransportSettings := {}
  { connectTimeoutMillis :=
      if gone "connect_timeout_ms" then base.connectTimeoutMillis else t.connectTimeoutMillis
    requestTimeoutMillis :=
      if gone "request_timeout_ms" then base.requestTimeoutMillis else t.requestTimeoutMillis }

def ObservabilitySettings.reset (gone : String → Bool) (o : ObservabilitySettings) :
    ObservabilitySettings :=
  let base : ObservabilitySettings := {}
  { logLevel := if gone "log_level" then base.logLevel else o.logLevel
    metricsEnabled := if gone "metrics_enabled" then base.metricsEnabled else o.metricsEnabled
    metricsAddress := if gone "metrics_address" then base.metricsAddress else o.metricsAddress }

/-- The configuration with the defaults in place of all that the given keys lead to. -/
def Config.reset (gone : List String → Bool) (c : Config) : Config :=
  let base : Config := {}
  { network := if gone ["network"] then base.network else c.network
    execution :=
      if gone ["execution"] then base.execution
      else c.execution.reset fun key => gone ["execution", key]
    penalty :=
      if gone ["node_backoff"] then base.penalty
      else c.penalty.reset fun key => gone ["node_backoff", key]
    transport :=
      if gone ["transport"] then base.transport
      else c.transport.reset fun key => gone ["transport", key]
    operator := if gone ["operator"] then base.operator else c.operator
    observability :=
      if gone ["observability"] then base.observability
      else c.observability.reset fun key => gone ["observability", key] }

/-- The keys that may be left out, after those of the sections that they stand in. -/
def Config.optionalKeys : List (List String) :=
  [["network"], ["execution"], ["node_backoff"], ["transport"], ["operator"], ["observability"],
    ["execution", "max_attempts"], ["execution", "min_backoff_ms"],
    ["execution", "max_backoff_ms"], ["execution", "regenerate_transaction_id"],
    ["execution", "max_nodes_per_request"], ["node_backoff", "min_backoff_ms"],
    ["node_backoff", "max_backoff_ms"], ["transport", "connect_timeout_ms"],
    ["transport", "request_timeout_ms"], ["observability", "log_level"],
    ["observability", "metrics_enabled"], ["observability", "metrics_address"]]

theorem ExecutionSettings.ofDocument?_without {e : ExecutionSettings}
    (hgone : ∀ path, gone path = true → d.Has path)
    (h : ExecutionSettings.ofDocument? surplus d = some e) :
    ExecutionSettings.ofDocument? surplus (d.without gone) =
      some (e.reset fun key => gone [key]) := by
  unfold ExecutionSettings.ofDocument? at h ⊢
  split at h
  next attempts least greatest regenerate nodes hfields =>
    simp only [Option.bind_eq_bind, Option.bind_eq_some_iff] at h
    obtain ⟨_, hattempts, _, hleast, _, hgreatest, _, hregenerate, _, hnodes, h⟩ := h
    cases h
    rw [fields?_without hgone hfields]
    simp [fieldOr_fieldWithout_plain nullable?_uint32?_without hattempts,
      fieldOr_fieldWithout_plain uint64?_without hleast,
      fieldOr_fieldWithout_plain uint64?_without hgreatest,
      fieldOr_fieldWithout_plain bool?_without hregenerate,
      fieldOr_fieldWithout_plain uint64?_without hnodes, ExecutionSettings.reset]
  next => cases h

theorem PenaltySettings.ofDocument?_without {p : PenaltySettings}
    (hgone : ∀ path, gone path = true → d.Has path)
    (h : PenaltySettings.ofDocument? surplus d = some p) :
    PenaltySettings.ofDocument? surplus (d.without gone) =
      some (p.reset fun key => gone [key]) := by
  unfold PenaltySettings.ofDocument? at h ⊢
  split at h
  next least greatest hfields =>
    simp only [Option.bind_eq_bind, Option.bind_eq_some_iff] at h
    obtain ⟨_, hleast, _, hgreatest, h⟩ := h
    cases h
    rw [fields?_without hgone hfields]
    simp [fieldOr_fieldWithout_plain uint64?_without hleast,
      fieldOr_fieldWithout_plain uint64?_without hgreatest, PenaltySettings.reset]
  next => cases h

theorem TransportSettings.ofDocument?_without {t : TransportSettings}
    (hgone : ∀ path, gone path = true → d.Has path)
    (h : TransportSettings.ofDocument? surplus d = some t) :
    TransportSettings.ofDocument? surplus (d.without gone) =
      some (t.reset fun key => gone [key]) := by
  unfold TransportSettings.ofDocument? at h ⊢
  split at h
  next connect request hfields =>
    simp only [Option.bind_eq_bind, Option.bind_eq_some_iff] at h
    obtain ⟨_, hconnect, _, hrequest, h⟩ := h
    cases h
    rw [fields?_without hgone hfields]
    simp [fieldOr_fieldWithout_plain uint64?_without hconnect,
      fieldOr_fieldWithout_plain uint64?_without hrequest, TransportSettings.reset]
  next => cases h

theorem ObservabilitySettings.ofDocument?_without {o : ObservabilitySettings}
    (hgone : ∀ path, gone path = true → d.Has path)
    (h : ObservabilitySettings.ofDocument? surplus d = some o) :
    ObservabilitySettings.ofDocument? surplus (d.without gone) =
      some (o.reset fun key => gone [key]) := by
  unfold ObservabilitySettings.ofDocument? at h ⊢
  split at h
  next level enabled address hfields =>
    simp only [Option.bind_eq_bind, Option.bind_eq_some_iff] at h
    obtain ⟨_, hlevel, _, henabled, _, haddress, h⟩ := h
    cases h
    rw [fields?_without hgone hfields]
    simp [fieldOr_fieldWithout_plain text?_without hlevel,
      fieldOr_fieldWithout_plain bool?_without henabled,
      fieldOr_fieldWithout_plain text?_without haddress, ObservabilitySettings.reset]
  next => cases h

theorem ExecutionSettings.reset_default (gone : String → Bool) :
    ExecutionSettings.reset gone {} = {} := by
  simp [ExecutionSettings.reset]

theorem PenaltySettings.reset_default (gone : String → Bool) :
    PenaltySettings.reset gone {} = {} := by
  simp [PenaltySettings.reset]

theorem TransportSettings.reset_default (gone : String → Bool) :
    TransportSettings.reset gone {} = {} := by
  simp [TransportSettings.reset]

theorem ObservabilitySettings.reset_default (gone : String → Bool) :
    ObservabilitySettings.reset gone {} = {} := by
  simp [ObservabilitySettings.reset]

/-- Below the operator there is no key that may be left out. -/
theorem operator_of_mem_optionalKeys {path : List String}
    (h : "operator" :: path ∈ Config.optionalKeys) : path = [] := by
  simpa [Config.optionalKeys] using h

theorem Config.ofDocument?_without {c : Config}
    (hkeys : ∀ path, gone path = true → path ∈ Config.optionalKeys)
    (hgone : ∀ path, gone path = true → d.Has path) (h : Config.ofDocument? surplus d = some c) :
    Config.ofDocument? surplus (d.without gone) = some (c.reset gone) := by
  unfold Config.ofDocument? at h ⊢
  split at h
  next network execution penalty transport operator observability hfields =>
    simp only [Option.bind_eq_bind, Option.bind_eq_some_iff] at h
    obtain ⟨_, hnetwork, _, hexecution, _, hpenalty, _, htransport, operatorId, hoperator, _,
      hobservability, h⟩ := h
    cases h
    have hhas := has_of_fields? hfields
    simp only [List.forall₂_cons] at hhas
    obtain ⟨-, inExecution, inPenalty, inTransport, -, inObservability, -⟩ := hhas
    have hid : fieldOr none (Document.nullable? (operatorOfDocument? surplus))
        (fieldWithout gone "operator" operator) =
          some (if gone ["operator"] then none else operatorId) := by
      refine fieldOr_fieldWithout (fun hnone => ?_) (fun d _ hd => ?_) hoperator
      · subst hnone
        exact (Option.some.inj hoperator).symm
      · rw [Document.without_of_none _ _ fun k path => ?_, hd]
        refine Bool.eq_false_iff.mpr fun hpath => ?_
        cases operator_of_mem_optionalKeys (hkeys _ hpath)
    rw [fields?_without hgone hfields]
    simp [fieldOr_fieldWithout_plain (fun gone d => by rw [items?_without]) hnetwork, hid,
      fieldOr_fieldWithout_section ExecutionSettings.reset_default
        (fun _ _ _ => ExecutionSettings.ofDocument?_without)
        (fun d hd path hpath => inExecution d hd path (hgone _ hpath)) hexecution,
      fieldOr_fieldWithout_section PenaltySettings.reset_default
        (fun _ _ _ => PenaltySettings.ofDocument?_without)
        (fun d hd path hpath => inPenalty d hd path (hgone _ hpath)) hpenalty,
      fieldOr_fieldWithout_section TransportSettings.reset_default
        (fun _ _ _ => TransportSettings.ofDocument?_without)
        (fun d hd path hpath => inTransport d hd path (hgone _ hpath)) htransport,
      fieldOr_fieldWithout_section ObservabilitySettings.reset_default
        (fun _ _ _ => ObservabilitySettings.ofDocument?_without)
        (fun d hd path hpath => inObservability d hd path (hgone _ hpath)) hobservability,
      Config.reset]
  next => cases h

/-- A configuration that was written is read as it was, and is as valid as it was. From a document
of a configuration, or a text of one, any keys can be left out that have a default, sections as a
whole or keys within them: what is read is the same but for just these parts, which have their
defaults then. -/
theorem defaults_of_config :
    (∀ c : Config, Config.ofJsonText? c.json.print = some c ∧
      (Config.ofJsonText? c.json.print).map Config.check = some c.check ∧
      Config.parse .json c.json.print = match c.check with
        | .ok _ => .ok c
        | .error violations => .error (.invalid violations)) ∧
    (∀ (surplus : Bool) (d : Document) (c : Config) (gone : List String → Bool),
      Config.ofDocument? surplus d = some c →
      (∀ path, gone path = true → path ∈ Config.optionalKeys ∧ d.Has path) →
      Config.ofDocument? surplus (d.without gone) = some (c.reset gone)) ∧
    ∀ (text text' : String) (d : Document) (c : Config) (gone : List String → Bool),
      Document.parse? text.toList = some d → Config.ofJsonText? text = some c →
      (∀ path, gone path = true → path ∈ Config.optionalKeys ∧ d.Has path) →
      Document.parse? text'.toList = some (d.without gone) →
      Config.ofJsonText? text' = some (c.reset gone) := by
  refine ⟨fun c => ?_, fun surplus d c gone hc hgone => ?_,
    fun text text' d c gone hd hc hgone hd' => ?_⟩
  · have hread := c.ofJsonText?_print
    refine ⟨hread, by rw [hread, Option.map_some], ?_⟩
    cases hcheck : c.check <;> simp [Config.parse, Config.ofText?, hread, hcheck]
  · exact Config.ofDocument?_without (fun path hpath => (hgone path hpath).1)
      (fun path hpath => (hgone path hpath).2) hc
  · rw [Config.ofJsonText?, hd, Option.bind_some] at hc
    rw [Config.ofJsonText?, hd', Option.bind_some]
    exact Config.ofDocument?_without (fun path hpath => (hgone path hpath).1)
      (fun path hpath => (hgone path hpath).2) hc

/-- The transport gives its fields by their places, and the comment is passed over. -/
theorem defaults_of_shorter :
    let network : Json := .list [NodeEntry.json ⟨"0.0.3", "127.0.0.1:50211"⟩]
    let more : List (String × Json) := [("transport", .list [.natural 1]), ("comment", .text "")]
    let written : Json := .record (("network", network) ::
      ("execution", .record [("max_attempts", .natural 3), ("min_backoff_ms", .natural 1)]) ::
      ("operator", .record [("account_id", .text "0.0.2")]) :: more)
    let shorter : Json := .record (("network", network) ::
      ("execution", .record [("min_backoff_ms", .natural 1)]) :: more)
    let c : Config :=
      { network := [⟨"0.0.3", "127.0.0.1:50211"⟩]
        execution := { maxAttempts := some 3, minBackoffMillis := 1 }
        transport := { connectTimeoutMillis := 1 }
        operator := some "0.0.2" }
    let rest : Config :=
      { c with execution := { minBackoffMillis := 1 }, operator := none }
    Config.ofJsonText? written.print = some c ∧ Config.ofJsonText? shorter.print = some rest ∧
      Config.ofDocument? true shorter.document = some rest := by
  intro network more written shorter c rest
  obtain ⟨-, hdocument, htext⟩ := defaults_of_config
  let gone (path : List String) : Bool := path ∈ [["execution", "max_attempts"], ["operator"]]
  have hexact : written.IsExact ∧ shorter.IsExact := by
    simp [written, shorter, network, more, NodeEntry.json, Json.IsExact, Json.ItemsExact,
      Json.MembersExact, Json.natural, Number.isExact]
  have hwritten := (parse?_print hexact.1).1
  have hc : Config.ofJsonText? written.print = some c := by
    rw [Config.ofJsonText?, hwritten]
    rfl
  have hshorter : shorter.document = written.document.without gone := by
    simp [shorter, written, more, network, gone, Json.natural, Json.document, documents_eq_map,
      memberDocuments_eq_map, Document.without, Document.membersWithout]
  have hgone : ∀ path, gone path = true →
      path ∈ Config.optionalKeys ∧ written.document.Has path := by
    intro path hpath
    obtain rfl | rfl : path = ["execution", "max_attempts"] ∨ path = ["operator"] := by
      simpa [gone] using hpath
    all_goals
      refine ⟨by decide, ?_⟩
      simp [written, Json.document, memberDocuments_eq_map, Document.Has]
  have hrest : c.reset gone = rest := by
    decide +kernel
  refine ⟨hc, ?_, ?_⟩
  · rw [← hrest]
    exact htext _ _ _ _ gone hwritten hc hgone (hshorter ▸ (parse?_print hexact.2).1)
  · rw [hshorter, ← hrest]
    exact hdocument true _ c gone rfl hgone

end LedgerClient
