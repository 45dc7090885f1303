import LedgerClient.Config.Check
import LedgerClient.Proofs.NodeSet
import Mathlib.Data.List.Lex

namespace LedgerClient

variable {c : Config} {entry : NodeEntry} {entries : List NodeEntry} {seen : List AccountId}
  {index n i j : Nat} {part other s : String} {v w : Config.Violation}
  {violations more : List Config.Violation}
  {id : AccountId} {address : NodeAddress} {node : AccountId × NodeAddress}
  {nodes : List (AccountId × NodeAddress)} {bounds : Backoff}

/-- The texts of an entry are those of this id and this address. -/
structure NodeEntry.Reads (entry : NodeEntry) (node : AccountId × NodeAddress) : Prop where
  id : AccountId.parse entry.accountId = .ok node.1
  address : NodeAddress.parse entry.address = .ok node.2

/-- What a configuration has to satisfy. -/
structure Config.Valid (c : Config) : Prop where
  nonempty : c.network ≠ []
  ids : ∀ entry ∈ c.network, ∃ id, AccountId.parse entry.accountId = .ok id
  addresses : ∀ entry ∈ c.network, ∃ address, NodeAddress.parse entry.address = .ok address
  /-- No id is given twice, however it is spelled. -/
  distinct : c.network.Pairwise fun x y => ∀ id,
    AccountId.parse x.accountId = .ok id → AccountId.parse y.accountId ≠ .ok id
  attempts : c.execution.maxAttempts ≠ some 0
  execution : c.execution.minBackoffMillis ≤ c.execution.maxBackoffMillis
  penalty : c.penalty.minMillis ≤ c.penalty.maxMillis
  metrics : c.observability.metricsEnabled = true →
    isSocketAddress c.observability.metricsAddress = true
  operator : ∀ text, c.operator = some text → ∃ id, AccountId.parse text = .ok id

/-- Whether a configuration violates a condition. Of the entries with one id all but the first are
to blame, and the same holds if the first has no address. -/
inductive Config.Violates (c : Config) : Config.Violation → Prop
  | noNodes : c.network = [] → c.Violates .noNodes
  | duplicateNode {before after : List NodeEntry} {entry other : NodeEntry} {id : AccountId} :
      c.network = before ++ entry :: after → AccountId.parse entry.accountId = .ok id →
      other ∈ before → AccountId.parse other.accountId = .ok id →
      c.Violates (.duplicateNode before.length id)
  | malformedNode {before after : List NodeEntry} {entry : NodeEntry}
      {cause : AccountId.Malformed} : c.network = before ++ entry :: after →
      AccountId.parse entry.accountId = .error cause →
      c.Violates (.malformedNode before.length cause)
  | malformedAddress {before after : List NodeEntry} {entry : NodeEntry}
      {cause : NodeAddress.Malformed} : c.network = before ++ entry :: after →
      NodeAddress.parse entry.address = .error cause →
      c.Violates (.malformedAddress before.length cause)
  | noAttempts : c.execution.maxAttempts = some 0 → c.Violates .noAttempts
  | executionBackoff : c.execution.maxBackoffMillis < c.execution.minBackoffMillis →
      c.Violates .executionBackoff
  | penaltyBackoff : c.penalty.maxMillis < c.penalty.minMillis → c.Violates .penaltyBackoff
  | metricsAddress : c.observability.metricsEnabled = true →
      isSocketAddress c.observability.metricsAddress = false → c.Violates .metricsAddress
  | malformedOperator {text : String} {cause : AccountId.Malformed} : c.operator = some text →
      AccountId.parse text = .error cause → c.Violates (.malformedOperator cause)

/-- Where a condition stands in the order of the file. Those on the entry of a node have its index
and then that of the field. -/
def Config.Violation.place : Config.Violation → List Nat
  | .noNodes => [0]
  | .duplicateNode i _ | .malformedNode i _ => [1, i, 0]
  | .malformedAddress i _ => [1, i, 1]
  | .noAttempts => [2]
  | .executionBackoff => [3]
  | .penaltyBackoff => [4]
  | .metricsAddress => [5]
  | .malformedOperator _ => [6]

/-- Each violation stands after those before it, so that none stands twice. -/
def InOrder (violations : List Config.Violation) : Prop :=
  violations.Pairwise fun v w => v.place < w.place

theorem NodeEntry.read?_eq_some_iff : entry.read? = some node ↔ entry.Reads node := by
  unfold NodeEntry.read? NodeEntry.id?
  cases hid : AccountId.parse entry.accountId with
  | error cause =>
    refine ⟨fun h => by simp [Except.toOption] at h, fun h => ?_⟩
    cases hid.symm.trans h.id
  | ok id =>
    cases ha : NodeAddress.parse entry.address with
    | error cause =>
      refine ⟨fun h => by simp [Except.toOption] at h, fun h => ?_⟩
      cases ha.symm.trans h.address
    | ok address =>
      constructor
      · intro h
        cases h
        exact ⟨hid, ha⟩
      · intro h
        cases hid.symm.trans h.id
        cases ha.symm.trans h.address
        rfl

theorem NodeEntry.id?_eq_some_iff :
    entry.id? = some id ↔ AccountId.parse entry.accountId = .ok id := by
  unfold NodeEntry.id?
  cases AccountId.parse entry.accountId <;> simp [Except.toOption]

theorem NodeEntry.mem_violations : v ∈ entry.violations seen index ↔
    (∃ id ∈ seen, AccountId.parse entry.accountId = .ok id ∧ v = .duplicateNode index id) ∨
    (∃ cause, AccountId.parse entry.accountId = .error cause ∧ v = .malformedNode index cause) ∨
    ∃ cause, NodeAddress.parse entry.address = .error cause ∧
      v = .malformedAddress index cause := by
  unfold NodeEntry.violations
  rw [List.mem_append, ← or_assoc]
  refine or_congr ?_ ?_
  · cases AccountId.parse entry.accountId with
    | error cause => simp
    | ok id =>
      by_cases h : id ∈ seen <;> simp [h]
  · cases NodeAddress.parse entry.address <;> simp

theorem seen_cons {first : NodeEntry} {before : List NodeEntry} :
    ((first :: before).filterMap NodeEntry.id?).reverse ++ seen =
      (before.filterMap NodeEntry.id?).reverse ++ (first.id?.toList ++ seen) := by
  cases h : first.id? <;> simp [h]

theorem mem_nodeViolations : v ∈ nodeViolations seen index entries ↔
    ∃ before entry after, entries = before ++ entry :: after ∧
      v ∈ entry.violations ((before.filterMap NodeEntry.id?).reverse ++ seen)
        (index + before.length) := by
  induction entries generalizing seen index with
  | nil => simp [nodeViolations]
  | cons first rest ih =>
    rw [nodeViolations, List.mem_append, ih]
    constructor
    · rintro (h | ⟨before, entry, after, rfl, h⟩)
      · exact ⟨[], first, rest, rfl, h⟩
      · refine ⟨first :: before, entry, after, rfl, ?_⟩
        rwa [seen_cons, List.length_cons, Nat.add_comm before.length, ← Nat.add_assoc]
    · rintro ⟨before, entry, after, he, h⟩
      cases before with
      | nil =>
        cases he
        exact .inl h
      | cons other before =>
        cases he
        rw [seen_cons, List.length_cons, Nat.add_comm before.length, ← Nat.add_assoc] at h
        exact .inr ⟨before, entry, after, rfl, h⟩

theorem mem_nodeViolations_of_network : v ∈ nodeViolations [] 0 entries ↔
    ∃ before entry after, entries = before ++ entry :: after ∧
      ((∃ id, (∃ other ∈ before, AccountId.parse other.accountId = .ok id) ∧
        AccountId.parse entry.accountId = .ok id ∧ v = .duplicateNode before.length id) ∨
      (∃ cause, AccountId.parse entry.accountId = .error cause ∧
        v = .malformedNode before.length cause) ∨
      ∃ cause, NodeAddress.parse entry.address = .error cause ∧
        v = .malformedAddress before.length cause) := by
  simp only [mem_nodeViolations, List.append_nil, Nat.zero_add, NodeEntry.mem_violations,
    List.mem_reverse, List.mem_filterMap, NodeEntry.id?_eq_some_iff]

theorem Config.mem_violations_of_network (h : v ∈ nodeViolations [] 0 c.network) :
    v ∈ c.violations := by
  simp [Config.violations, h]

/-- The violations that are found are those there are. -/
theorem Config.mem_violations : v ∈ c.violations ↔ c.Violates v := by
  constructor
  · intro h
    simp only [Config.violations, List.mem_append, List.mem_ite_nil_right, List.mem_singleton] at h
    rcases h with (((((⟨h, rfl⟩ | h) | ⟨h, rfl⟩) | ⟨h, rfl⟩) | ⟨h, rfl⟩) | ⟨h, rfl⟩) | h
    · exact .noNodes h
    · obtain ⟨before, entry, after, hc, ⟨id, ⟨other, ho, hsame⟩, hid, rfl⟩ | ⟨cause, hid, rfl⟩ |
        ⟨cause, ha, rfl⟩⟩ := mem_nodeViolations_of_network.mp h
      · exact .duplicateNode hc hid ho hsame
      · exact .malformedNode hc hid
      · exact .malformedAddress hc ha
    · exact .noAttempts h
    · exact .executionBackoff h
    · exact .penaltyBackoff h
    · simp only [Bool.and_eq_true, Bool.not_eq_true'] at h
      exact .metricsAddress h.1 h.2
    · split at h
      next cause hcause =>
        obtain ⟨text, htext, hparse⟩ := Option.map_eq_some_iff.mp hcause
        obtain rfl := List.mem_singleton.mp h
        exact .malformedOperator htext hparse
      next => cases h
  · intro h
    cases h with
    | duplicateNode hc hid ho hsame =>
      exact Config.mem_violations_of_network (mem_nodeViolations_of_network.mpr
        ⟨_, _, _, hc, .inl ⟨_, ⟨_, ho, hsame⟩, hid, rfl⟩⟩)
    | malformedNode hc hid =>
      exact Config.mem_violations_of_network (mem_nodeViolations_of_network.mpr
        ⟨_, _, _, hc, .inr (.inl ⟨_, hid, rfl⟩)⟩)
    | malformedAddress hc ha =>
      exact Config.mem_violations_of_network (mem_nodeViolations_of_network.mpr
        ⟨_, _, _, hc, .inr (.inr ⟨_, ha, rfl⟩)⟩)
    | noNodes h => simp [Config.violations, h]
    | noAttempts h => simp [Config.violations, h]
    | executionBackoff h => simp [Config.violations, h]
    | penaltyBackoff h => simp [Config.violations, h]
    | metricsAddress henabled hnot => simp [Config.violations, henabled, hnot]
    | malformedOperator htext hparse => simp [Config.violations, htext, hparse]

theorem NodeEntry.place_of_mem (h : v ∈ entry.violations seen index) :
    ∃ part, v.place = [1, index, part] := by
  rcases NodeEntry.mem_violations.mp h with ⟨id, -, -, rfl⟩ | ⟨cause, -, rfl⟩ | ⟨cause, -, rfl⟩
  · exact ⟨0, rfl⟩
  · exact ⟨0, rfl⟩
  · exact ⟨1, rfl⟩

theorem place_of_mem_nodeViolations (h : v ∈ nodeViolations seen index entries) :
    ∃ i part, index ≤ i ∧ v.place = [1, i, part] := by
  obtain ⟨before, entry, -, -, hv⟩ := mem_nodeViolations.mp h
  obtain ⟨part, hpart⟩ := NodeEntry.place_of_mem hv
  exact ⟨_, part, Nat.le_add_right .., hpart⟩

/-- The id of an entry comes before its address. -/
theorem NodeEntry.inOrder_violations : InOrder (entry.violations seen index) := by
  have hparts : ([0] : List Nat) < [1] := .rel Nat.zero_lt_one
  unfold NodeEntry.violations InOrder
  cases AccountId.parse entry.accountId with
  | error cause => cases NodeAddress.parse entry.address <;> simp [Config.Violation.place, hparts]
  | ok id =>
    by_cases h : id ∈ seen <;> cases NodeAddress.parse entry.address <;>
      simp [h, Config.Violation.place, hparts]

theorem inOrder_nodeViolations : InOrder (nodeViolations seen index entries) := by
  induction entries generalizing seen index with
  | nil => exact .nil
  | cons entry rest ih =>
    refine List.pairwise_append.mpr ⟨NodeEntry.inOrder_violations, ih, fun v hv w hw => ?_⟩
    obtain ⟨part, hv⟩ := NodeEntry.place_of_mem hv
    obtain ⟨i, other, hi, hw⟩ := place_of_mem_nodeViolations hw
    rw [hv, hw]
    exact .cons (.rel hi)

/-- In order, and all before this part of the file. -/
structure InOrderBefore (n : Nat) (violations : List Config.Violation) : Prop where
  inOrder : InOrder violations
  before : ∀ v ∈ violations, v.place < [n]

theorem InOrderBefore.append (h : InOrderBefore n violations) (hm : InOrder more)
    (hp : ∀ v ∈ more, v.place.head? = some n) : InOrderBefore (n + 1) (violations ++ more) := by
  have hplace : ∀ v ∈ more, [n] ≤ v.place ∧ v.place < [n + 1] := by
    intro v hv
    obtain ⟨rest, hrest⟩ := List.head?_eq_some_iff.mp (hp v hv)
    rw [hrest]
    exact ⟨not_lt.mp (by simp), .rel (Nat.lt_succ_self n)⟩
  refine ⟨List.pairwise_append.mpr ⟨h.inOrder, hm, fun v hv w hw => ?_⟩, fun v hv => ?_⟩
  · exact lt_of_lt_of_le (h.before v hv) (hplace w hw).1
  · rcases List.mem_append.mp hv with hv | hv
    · exact (h.before v hv).trans (.rel (Nat.lt_succ_self n))
    · exact (hplace v hv).2

theorem InOrderBefore.append_if {p : Prop} [Decidable p] (h : InOrderBefore n violations)
    (hv : v.place = [n]) : InOrderBefore (n + 1) (violations ++ if p then [v] else []) := by
  refine h.append ?_ ?_
  · split
    · exact List.pairwise_singleton ..
    · exact .nil
  · simp [hv]

theorem Config.inOrder_violations : InOrder c.violations := by
  have hstart : InOrderBefore 0 [] := ⟨.nil, by simp⟩
  have hnetwork : ∀ v ∈ nodeViolations [] 0 c.network, v.place.head? = some 1 := by
    intro v hv
    obtain ⟨i, part, -, hplace⟩ := place_of_mem_nodeViolations hv
    rw [hplace, List.head?_cons]
  have hnodes := (hstart.append_if (p := c.network = []) (v := .noNodes) rfl).append
    inOrder_nodeViolations hnetwork
  have hsettings : InOrderBefore 7 c.violations := by
    refine .append (.append_if (.append_if (.append_if (.append_if hnodes rfl) rfl) rfl) rfl) ?_ ?_
    · split
      · exact List.pairwise_singleton ..
      · exact .nil
    · split <;> simp [Config.Violation.place]
  exact hsettings.inOrder

theorem pairwise_of_split {α : Type} {r : α → α → Prop} {xs : List α}
    (h : ∀ before x after, xs = before ++ x :: after → ∀ y ∈ before, r y x) : xs.Pairwise r := by
  induction xs using List.reverseRecOn with
  | nil => exact .nil
  | append_singleton xs x ih =>
    refine List.pairwise_append.mpr ⟨ih fun before y after hs => ?_, List.pairwise_singleton ..,
      fun y hy z hz => ?_⟩
    · exact h before y (after ++ [x]) (by simp [hs])
    · obtain rfl := List.mem_singleton.mp hz
      exact h xs z [] rfl y hy

theorem Config.Valid.not_violates (h : c.Valid) : ¬ c.Violates v := by
  intro hv
  cases hv with
  | noNodes hc => exact h.nonempty hc
  | duplicateNode hc hid ho hsame =>
    have hdistinct := h.distinct
    rw [hc, List.pairwise_append] at hdistinct
    exact hdistinct.2.2 _ ho _ List.mem_cons_self _ hsame hid
  | malformedNode hc hid =>
    obtain ⟨id, hok⟩ := h.ids _ (hc ▸ List.mem_append_right _ List.mem_cons_self)
    cases hid.symm.trans hok
  | malformedAddress hc ha =>
    obtain ⟨address, hok⟩ := h.addresses _ (hc ▸ List.mem_append_right _ List.mem_cons_self)
    cases ha.symm.trans hok
  | noAttempts ha => exact h.attempts ha
  | executionBackoff hlt => exact UInt64.not_lt.mpr h.execution hlt
  | penaltyBackoff hlt => exact UInt64.not_lt.mpr h.penalty hlt
  | metricsAddress henabled hnot => cases hnot.symm.trans (h.metrics henabled)
  | malformedOperator ho hparse =>
    obtain ⟨id, hok⟩ := h.operator _ ho
    cases hparse.symm.trans hok

theorem Config.valid_of_not_violates (h : ∀ v, ¬ c.Violates v) : c.Valid where
  nonempty hc := h _ (.noNodes hc)
  ids entry he := by
    obtain ⟨before, after, hc⟩ := List.append_of_mem he
    cases hid : AccountId.parse entry.accountId with
    | ok id => exact ⟨id, rfl⟩
    | error cause => exact absurd (.malformedNode hc hid) (h _)
  addresses entry he := by
    obtain ⟨before, after, hc⟩ := List.append_of_mem he
    cases ha : NodeAddress.parse entry.address with
    | ok address => exact ⟨address, rfl⟩
    | error cause => exact absurd (.malformedAddress hc ha) (h _)
  distinct := pairwise_of_split fun before entry after hc other ho id hsame hid =>
    h _ (.duplicateNode hc hid ho hsame)
  attempts ha := h _ (.noAttempts ha)
  execution := UInt64.not_lt.mp fun hlt => h _ (.executionBackoff hlt)
  penalty := UInt64.not_lt.mp fun hlt => h _ (.penaltyBackoff hlt)
  metrics henabled := by
    by_contra hnot
    exact h _ (.metricsAddress henabled (Bool.eq_false_iff.mpr hnot))
  operator text ho := by
    cases hid : AccountId.parse text with
    | ok id => exact ⟨id, rfl⟩
    | error cause => exact absurd (.malformedOperator ho hid) (h _)

theorem Config.valid_iff : c.Valid ↔ c.violations = [] := by
  rw [List.eq_nil_iff_forall_not_mem]
  simp only [Config.mem_violations]
  exact ⟨fun h _ => h.not_violates, Config.valid_of_not_violates⟩

theorem forall₂_read? (h : ∀ entry ∈ entries, ∃ node, entry.Reads node) :
    List.Forall₂ NodeEntry.Reads entries (entries.filterMap NodeEntry.read?) := by
  induction entries with
  | nil => exact .nil
  | cons entry rest ih =>
    obtain ⟨node, hnode⟩ := h entry (by simp)
    rw [List.filterMap_cons_some (NodeEntry.read?_eq_some_iff.mpr hnode)]
    exact .cons hnode (ih fun other ho => h other (by simp [ho]))

/-- Entries with different ids are read as nodes with different ids. -/
theorem nodup_read? (hd : entries.Pairwise fun x y => ∀ id,
      AccountId.parse x.accountId = .ok id → AccountId.parse y.accountId ≠ .ok id) :
    ((entries.filterMap NodeEntry.read?).map Prod.fst).Nodup := by
  rw [List.Nodup, List.pairwise_map, List.pairwise_filterMap]
  refine hd.imp fun {x y} hne a ha b hb heq => ?_
  have hx : AccountId.parse x.accountId = .ok a.1 := (NodeEntry.read?_eq_some_iff.mp ha).id
  have hy : AccountId.parse y.accountId = .ok b.1 := (NodeEntry.read?_eq_some_iff.mp hb).id
  exact hne a.1 hx (heq ▸ hy)

theorem mem_of_lastAddress? (h : lastAddress? nodes id = some address) : (id, address) ∈ nodes := by
  obtain ⟨entry, hlast, rfl⟩ := Option.map_eq_some_iff.mp h
  obtain ⟨hmem, hid⟩ := List.mem_filter.mp (List.mem_of_getLast? hlast)
  rwa [← beq_iff_eq.mp hid]

/-- A network of nodes with different ids has just these nodes, and nothing has happened to them. -/
theorem Network.find?_ofEntries (hn : (nodes.map Prod.fst).Nodup) (h : (id, address) ∈ nodes) :
    (Network.ofEntries bounds nodes).find? id = some (.fresh id address) := by
  have hlast : lastAddress? nodes id = some address := by
    obtain ⟨last, hlast⟩ := Option.ne_none_iff_exists'.mp fun hnone =>
      lastAddress?_eq_none_iff.mp hnone (List.mem_map_of_mem h)
    have hsame : (id, last) = (id, address) :=
      List.inj_on_of_nodup_map hn (mem_of_lastAddress? hlast) h rfl
    rw [hlast, (Prod.mk.inj hsame).2]
  rw [Network.ofEntries, Network.find?_set, hlast]
  rfl

theorem Network.size_ofEntries (hn : (nodes.map Prod.fst).Nodup) :
    (Network.ofEntries bounds nodes).size = nodes.length := by
  rw [Network.ofEntries, Network.size_set, List.toFinset_card_of_nodup hn, List.length_map]

theorem takeWhile_decimal {rest : List Char} :
    (decimal i ++ ']' :: rest).takeWhile Char.isDigit = decimal i := by
  rw [List.takeWhile_append_of_pos fun c hc => isDigit_of_mem_decimal hc]
  simp

theorem nodePath_toList : (nodePath i part).toList =
    "network[".toList ++ (decimal i ++ ']' :: '.' :: part.toList) := by
  simp [nodePath]

/-- A path names the entry and the part. -/
theorem nodePath_eq_iff : nodePath i part = nodePath j other ↔ i = j ∧ part = other := by
  refine ⟨fun h => ?_, fun ⟨hi, hp⟩ => by rw [hi, hp]⟩
  have hlist := congrArg String.toList h
  rw [nodePath_toList, nodePath_toList, List.append_cancel_left_eq] at hlist
  have hdigits : decimal i = decimal j := by
    rw [← takeWhile_decimal (i := i), hlist, takeWhile_decimal]
  obtain rfl : i = j := by
    rw [← Option.some_inj, ← readDecimal?_decimal, hdigits, readDecimal?_decimal]
  rw [List.append_cancel_left_eq] at hlist
  exact ⟨rfl, String.toList_injective (by simpa using hlist)⟩

theorem nodePath_ne (h : s.toList[7]? ≠ some '[') :
    nodePath i part ≠ s ∧ s ≠ nodePath i part := by
  have hbracket : (nodePath i part).toList[7]? = some '[' := by
    rw [nodePath_toList]
    rfl
  exact ⟨fun heq => h (heq ▸ hbracket), fun heq => h (heq ▸ hbracket)⟩

/-- Conditions with one field stand at one place of the file. -/
theorem Config.Violation.place_of_field (h : v.field = w.field) : v.place = w.place := by
  cases v <;> cases w <;>
    simp (disch := decide) [field, place, nodePath_eq_iff, nodePath_ne] at h ⊢ <;>
    exact h

theorem InOrder.nodup_fields (h : InOrder violations) :
    (violations.map Config.Violation.field).Nodup := by
  rw [List.Nodup, List.pairwise_map]
  exact h.imp fun hlt heq => ne_of_lt hlt (Config.Violation.place_of_field heq)

theorem Config.check_eq_ok (h : c.violations = []) :
    c.check = .ok ⟨c.network.filterMap NodeEntry.read?,
      c.operator.bind fun id => (AccountId.parse id).toOption⟩ := by
  rw [Config.check, h]

theorem Config.check_eq_error (h : c.violations ≠ []) : c.check = .error c.violations := by
  rw [Config.check]
  split
  next hnil => exact absurd hnil h
  next => rfl

theorem Config.Valid.reads (h : c.Valid) : ∀ entry ∈ c.network, ∃ node, entry.Reads node := by
  intro entry he
  obtain ⟨id, hid⟩ := h.ids entry he
  obtain ⟨address, ha⟩ := h.addresses entry he
  exact ⟨(id, address), hid, ha⟩

/-- The network of a valid configuration has the nodes that it names, each at its address. -/
theorem Config.Valid.network_of_client (h : c.Valid) :
    ∃ client net, Client.ofConfig c = .ok (client, net) ∧ net.size = c.network.length ∧
      ∀ entry ∈ c.network, ∃ id address, entry.Reads (id, address) ∧
        net.find? id = some (.fresh id address) := by
  have hnodup := nodup_read? h.distinct
  refine ⟨_, _, by rw [Client.ofConfig, Config.check_eq_ok (Config.valid_iff.mp h)]; rfl, ?_,
    fun entry he => ?_⟩
  · rw [Network.size_ofEntries hnodup, ← (forall₂_read? h.reads).length_eq]
  · obtain ⟨⟨id, address⟩, hreads⟩ := h.reads entry he
    have hmem : (id, address) ∈ c.network.filterMap NodeEntry.read? :=
      List.mem_filterMap.mpr ⟨entry, he, NodeEntry.read?_eq_some_iff.mpr hreads⟩
    exact ⟨id, address, hreads, Network.find?_ofEntries hnodup hmem⟩

/-- A configuration is accepted exactly if it is valid. Then its nodes are read in their order, and
the client that it describes has a network of just these nodes. If it is refused, the violations
are all there are, each of them once and in the order of the file, and no two are on one field. -/
theorem check_of_config (c : Config) :
    (c.Valid ↔ ∃ checked, c.check = .ok checked) ∧
    match c.check with
    | .ok checked =>
      List.Forall₂ NodeEntry.Reads c.network checked.nodes ∧
      checked.nodes.length = c.network.length ∧
      checked.operator.map Except.ok = c.operator.map AccountId.parse ∧
      ∃ client net, Client.ofConfig c = .ok (client, net) ∧ net.size = c.network.length ∧
        ∀ entry ∈ c.network, ∃ id address, entry.Reads (id, address) ∧
          net.find? id = some (.fresh id address)
    | .error violations =>
      Client.ofConfig c = .error violations ∧
      (∀ v, v ∈ violations ↔ c.Violates v) ∧ InOrder violations ∧
      (violations.map Config.Violation.field).Nodup := by
  by_cases hv : c.violations = []
  · have valid : c.Valid := Config.valid_iff.mpr hv
    have hcheck := Config.check_eq_ok hv
    have hreads := forall₂_read? valid.reads
    refine ⟨⟨fun _ => ⟨_, hcheck⟩, fun _ => valid⟩, ?_⟩
    rw [hcheck]
    refine ⟨hreads, hreads.length_eq.symm, ?_, valid.network_of_client⟩
    cases ho : c.operator with
    | none => rfl
    | some text =>
      obtain ⟨id, hid⟩ := valid.operator text ho
      simp [hid, Except.toOption]
  · have hcheck := Config.check_eq_error hv
    refine ⟨⟨fun valid => absurd (Config.valid_iff.mp valid) hv, ?_⟩, ?_⟩
    · rintro ⟨checked, hok⟩
      cases hcheck.symm.trans hok
    · rw [hcheck]
      refine ⟨by rw [Client.ofConfig, hcheck]; rfl, fun v => Config.mem_violations,
        Config.inOrder_violations, Config.inOrder_violations.nodup_fields⟩

/-- An address that cannot be read does not free the id of its node, and blanks, a sign and zeros
do not make another id. -/
example : Config.check
    { network := [⟨"0.0.3", "node"⟩, ⟨" 00.0.+3", "node:5"⟩, ⟨"zero", "node:5"⟩]
      execution := { maxAttempts := some 0 } } = .error [
    .malformedAddress 0 ⟨"node", .missingPort⟩, .duplicateNode 1 ⟨0, 0, 3⟩,
    .malformedNode 2 (.shape "zero"), .noAttempts] := by
  decide +kernel

end LedgerClient
