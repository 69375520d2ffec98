import ClusterClient.Topology.NodeInfo
import Mathlib.Data.List.Nodup
import Mathlib.Data.String.Basic
import Mathlib.Logic.Relation

/-!
# The layout of the system tables' rows

Nodes of different versions lay out the rows of their system tables differently. What is read of a
row depends on its entries alone, the names each with its cell, and of these on the columns of
`SystemTable.columns` and on what such a column may hold (`Row.told`). `Row.Relaid` lists the ways
in which two rows may differ and still tell the same, and `NodeInfo.ofRow_eq_of_alike` says that a
node is described the same by rows that are alike up to any number of these.
-/

namespace ClusterClient

section
variable {s a : String} {ss ss' : List String}

theorem mem_insertText : a ∈ insertText s ss ↔ a = s ∨ a ∈ ss := by
  induction ss with
  | nil => simp [insertText]
  | cons t ts ih =>
    unfold insertText
    split
    · simp
    · split
      · next heq => simp [heq]
      · simp only [List.mem_cons, ih]
        tauto

theorem mem_sortedTexts : a ∈ sortedTexts ss ↔ a ∈ ss := by
  induction ss with
  | nil => simp [sortedTexts]
  | cons s ss ih =>
    simp only [sortedTexts, List.foldr_cons, mem_insertText, List.mem_cons] at ih ⊢
    rw [ih]

theorem pairwise_insertText (h : ss.Pairwise (· < ·)) : (insertText s ss).Pairwise (· < ·) := by
  induction h with
  | nil => simp [insertText]
  | @cons t ts ht h ih =>
    unfold insertText
    split
    · next hlt =>
      refine .cons (fun a ha => ?_) (.cons ht h)
      rcases List.mem_cons.1 ha with rfl | ha
      · exact hlt
      · exact lt_trans hlt (ht a ha)
    · next hlt =>
      split
      · exact .cons ht h
      · next hne =>
        refine .cons (fun a ha => ?_) ih
        rcases mem_insertText.1 ha with rfl | ha
        · exact lt_of_le_of_ne (not_lt.1 hlt) (Ne.symm hne)
        · exact ht a ha

theorem pairwise_sortedTexts (ss : List String) : (sortedTexts ss).Pairwise (· < ·) := by
  induction ss with
  | nil => exact .nil
  | cons s ss ih => exact pairwise_insertText ih

/-- A set of texts has one sorted list. -/
theorem sortedTexts_congr (h : ∀ s, s ∈ ss ↔ s ∈ ss') : sortedTexts ss = sortedTexts ss' := by
  have hsorted := pairwise_sortedTexts ss
  have hsorted' := pairwise_sortedTexts ss'
  have hperm : (sortedTexts ss).Perm (sortedTexts ss') := by
    rw [List.perm_ext_iff_of_nodup (hsorted.imp ne_of_lt) (hsorted'.imp ne_of_lt)]
    simp [mem_sortedTexts, h]
  exact hperm.eq_of_pairwise (fun _ _ _ _ hlt hgt => absurd hgt (lt_asymm hlt)) hsorted hsorted'

end

/-- What a column of a system table is for. -/
inductive ColumnKind where
  | host | text | texts
  deriving DecidableEq

/-- What the cell of a column comes to. -/
inductive Content where
  | host (h : Host)
  | text (s : String)
  /-- The texts of a set, sorted and each once. -/
  | texts (ss : List String)

namespace ColumnKind

/-- The values that are of the column's type. -/
def admits : ColumnKind → Value → Bool
  | .host, .inet _ => true
  | .text, .ascii _ | .text, .text _ => true
  | .texts, .set _ => true
  | _, _ => false

/-- What a value comes to in such a column. -/
def content? : ColumnKind → Value → Option Content
  | .host, v => v.host?.map .host
  | .text, v => v.text?.map .text
  | .texts, v => v.set?.map fun vs => .texts (sortedTexts (vs.filterMap Value.text?))

/-- A value of another type comes to nothing. -/
theorem content?_eq_none {k : ColumnKind} {v : Value} (h : k.admits v = false) :
    k.content? v = none := by
  cases k <;> cases v <;>
    simp_all [admits, ColumnKind.content?, Value.host?, Value.text?, Value.set?]

end ColumnKind

/-- The columns that are read of a system table's rows. -/
def SystemTable.columns (t : SystemTable) : List (String × ColumnKind) :=
  [("rpc_address", .host), (t.broadcastColumn, .host), ("listen_address", .host),
    ("data_center", .text), ("rack", .text), ("release_version", .text), ("tokens", .texts)]

/-- What a column of a system table is for, if it is read. -/
def SystemTable.kind? (t : SystemTable) (column : String) : Option ColumnKind :=
  t.columns.lookup column

/-- What an entry tells, if it is in a column that is read and of that column's type. -/
def SystemTable.told? (t : SystemTable) : String × Option Value → Option (String × Content)
  | (column, cell) => (t.kind? column).bind fun k => (cell.bind k.content?).map (column, ·)

namespace Row

variable {t : SystemTable} {r r' : Row} {c : String} {k : ColumnKind}

/-- The names of a row, each with its cell. A cell that the row does not have is null. -/
def entries (r : Row) : List (String × Option Value) :=
  r.columns.mapIdx fun i c => (c, (r.cells[i]?).join)

/-- What the entries of a row tell. -/
def told (t : SystemTable) (r : Row) : List (String × Content) :=
  r.entries.filterMap t.told?

/-- Another way to write down a set of texts. -/
inductive Retold : List Value → List Value → Prop
  | permuted {vs vs' : List Value} : vs.Perm vs' → Retold vs vs'
  | repeated {vs : List Value} {v : Value} : v ∈ vs → Retold vs (v :: vs)
  | added {vs : List Value} {v : Value} : v.text? = none → Retold vs (v :: vs)

/-- **Another layout of a row.** -/
inductive Relaid (t : SystemTable) (r r' : Row) : Prop
  /-- The columns are in another order, each with its cell. -/
  | permuted : r.entries.Perm r'.entries → Relaid t r r'
  /-- A null column is there besides, under any name. -/
  | null (before after : List (String × Option Value)) {column : String} :
      r.entries = before ++ after → r'.entries = before ++ (column, none) :: after →
      Relaid t r r'
  /-- Nulls at the end are written down. -/
  | padded (count : Nat) :
      r' = ⟨r.columns, r.cells ++ List.replicate count none⟩ → Relaid t r r'
  /-- For a value of the wrong type there is a null. -/
  | mistyped (before after : List (String × Option Value)) {column : String} {k : ColumnKind}
      {v : Value} :
      t.kind? column = some k → k.admits v = false →
      r.entries = before ++ (column, some v) :: after →
      r'.entries = before ++ (column, none) :: after → Relaid t r r'
  /-- A column that is not read has another cell, or another name that is not read. -/
  | unread (before after : List (String × Option Value)) {column column' : String}
      {cell cell' : Option Value} :
      t.kind? column = none → t.kind? column' = none →
      r.entries = before ++ (column, cell) :: after →
      r'.entries = before ++ (column', cell') :: after → Relaid t r r'
  /-- The set of tokens is written down in another way. -/
  | tokens (before after : List (String × Option Value)) {vs vs' : List Value} :
      Retold vs vs' →
      r.entries = before ++ ("tokens", some (.set vs)) :: after →
      r'.entries = before ++ ("tokens", some (.set vs')) :: after → Relaid t r r'

/-- Two rows, each with distinct names, that any number of changes of the layout lead between. -/
def Alike (t : SystemTable) : Row → Row → Prop :=
  Relation.EqvGen fun r r' => r.columns.Nodup ∧ r'.columns.Nodup ∧ r.Relaid t r'

theorem mem_entries {v : Value} :
    (c, some v) ∈ r.entries ↔ ∃ i : Nat, r.columns[i]? = some c ∧ r.cells[i]? = some (some v) := by
  simp only [entries, List.mem_mapIdx, Prod.mk.injEq, Option.join_eq_some_iff]
  exact ⟨fun ⟨i, hi, hc, hv⟩ => ⟨i, List.getElem?_eq_some_iff.2 ⟨hi, hc⟩, hv⟩,
    fun ⟨i, hc, hv⟩ => have ⟨hi, hc⟩ := List.getElem?_eq_some_iff.1 hc; ⟨i, hi, hc, hv⟩⟩

/-- What is found under a name is its entry, if no other column has the name. -/
theorem get?_eq_some_iff (hr : r.columns.Nodup) {v : Value} :
    r.get? c = some v ↔ (c, some v) ∈ r.entries := by
  rw [mem_entries, get?, Option.join_eq_some_iff, Option.bind_eq_some_iff]
  refine exists_congr fun i => and_congr_left fun _ => ?_
  rw [List.idxOf?_eq_some_iff, List.getElem?_eq_some_iff]
  refine exists_congr fun hi => and_iff_left_of_imp fun hc j hj hc' => ?_
  exact hj.ne ((List.Nodup.getElem_inj_iff hr).1 (hc'.trans hc.symm))

/-- A column that is read comes to what its entry tells. -/
theorem content?_eq_some_iff (hr : r.columns.Nodup) (hk : t.kind? c = some k) {x : Content} :
    (r.get? c).bind k.content? = some x ↔ (c, x) ∈ r.told t := by
  simp only [Option.bind_eq_some_iff, get?_eq_some_iff hr, told, List.mem_filterMap]
  constructor
  · rintro ⟨v, hv, hx⟩
    exact ⟨_, hv, by simp [SystemTable.told?, hk, hx]⟩
  · rintro ⟨⟨column, cell⟩, hmem, htold⟩
    simp only [SystemTable.told?, Option.bind_eq_some_iff, Option.map_eq_some_iff,
      Prod.mk.injEq] at htold
    obtain ⟨k', hk', x', ⟨v, rfl, hv⟩, rfl, rfl⟩ := htold
    obtain rfl : k = k' := Option.some.inj (hk.symm.trans hk')
    exact ⟨v, hmem, hv⟩

theorem Retold.content?_eq {vs vs' : List Value} (h : Retold vs vs') :
    ColumnKind.texts.content? (.set vs) = ColumnKind.texts.content? (.set vs') := by
  refine congrArg (some ∘ Content.texts) (sortedTexts_congr fun s => ?_)
  cases h with
  | permuted h => exact (h.filterMap Value.text?).mem_iff
  | repeated h =>
    simp only [List.mem_filterMap, List.mem_cons, exists_eq_or_imp]
    exact ⟨.inr, (·.elim (⟨_, h, ·⟩) id)⟩
  | added h => rw [List.filterMap_cons_none h]

theorem entries_padded (r : Row) (count : Nat) :
    entries ⟨r.columns, r.cells ++ List.replicate count none⟩ = r.entries := by
  refine congrArg (r.columns.mapIdx ·) ?_
  funext i c
  rw [List.getElem?_append]
  split
  · rfl
  · next hi =>
    rw [List.getElem?_replicate, List.getElem?_eq_none (not_lt.1 hi)]
    split <;> rfl

/-- Another layout tells the same. -/
theorem Relaid.told_perm (h : r.Relaid t r') : (r.told t).Perm (r'.told t) := by
  cases h with
  | permuted h => exact h.filterMap t.told?
  | null before after hr hr' =>
    simp [told, hr, hr', SystemTable.told?]
  | padded count hr => rw [told, told, hr, entries_padded]
  | mistyped before after hk hv hr hr' =>
    simp [told, hr, hr', SystemTable.told?, hk, ColumnKind.content?_eq_none hv]
  | unread before after hc hc' hr hr' => simp [told, hr, hr', SystemTable.told?, hc, hc']
  | tokens before after hvs hr hr' =>
    have hk : t.kind? "tokens" = some .texts := by cases t <;> rfl
    simp only [told, hr, hr', List.filterMap_append, List.filterMap_cons, SystemTable.told?, hk,
      Option.bind_some, hvs.content?_eq]
    exact .refl _

/-- Alike rows come to the same in every column that is read. -/
theorem Alike.bind_content?_eq (h : Alike t r r') (hk : t.kind? c = some k) :
    (r.get? c).bind k.content? = (r'.get? c).bind k.content? := by
  induction h with
  | rel r r' h =>
    refine Option.ext fun x => ?_
    rw [content?_eq_some_iff h.1 hk, content?_eq_some_iff h.2.1 hk, h.2.2.told_perm.mem_iff]
  | refl r => rfl
  | symm r r' _ ih => exact ih.symm
  | trans r r' r'' _ _ ih ih' => exact ih.trans ih'

/-- A view of the values of a column sees the same in alike rows if it sees what such a column
comes to. -/
theorem Alike.bind_view_eq {α : Type} {view : Value → Option α} (make : α → Content)
    (h : Alike t r r') (hk : t.kind? c = some k)
    (hview : k.content? = fun v => (view v).map make) (hmake : Function.Injective make) :
    (r.get? c).bind view = (r'.get? c).bind view := by
  refine Option.map_injective hmake ?_
  have hsame := h.bind_content?_eq hk
  rw [hview] at hsame
  rw [Option.map_bind, Option.map_bind]
  exact hsame

theorem Alike.host?_eq (h : Alike t r r') (hk : t.kind? c = some .host) :
    r.host? c = r'.host? c :=
  h.bind_view_eq .host hk rfl fun _ _ => Content.host.inj

theorem Alike.text?_eq (h : Alike t r r') (hk : t.kind? c = some .text) :
    r.text? c = r'.text? c :=
  h.bind_view_eq .text hk rfl fun _ _ => Content.text.inj

theorem Alike.textSet?_eq (h : Alike t r r') (hk : t.kind? c = some .texts) :
    r.textSet? c = r'.textSet? c := by
  rw [textSet?, textSet?, Option.map_bind, Option.map_bind]
  refine h.bind_view_eq .texts hk ?_ fun _ _ => Content.texts.inj
  funext v
  simp [ColumnKind.content?, Function.comp_def]

end Row

/-- **A node is described the same however the row is laid out**: with the columns in another
order, with or without null columns and trailing nulls, with a null for a value of the wrong type,
with anything in the columns that are not read of this table, and with the tokens in another order,
repeated, or among elements that are no texts. -/
theorem NodeInfo.ofRow_eq_of_alike {t : SystemTable} {r r' : Row} (h : Row.Alike t r r')
    (resolve : Address → Address) (port : UInt16) :
    NodeInfo.ofRow resolve port t r = NodeInfo.ofRow resolve port t r' := by
  have hbroadcast : t.kind? t.broadcastColumn = some .host := by cases t <;> rfl
  simp only [ofRow, connectAddress?, h.host?_eq (c := "rpc_address") rfl, h.host?_eq hbroadcast,
    h.host?_eq (c := "listen_address") (by cases t <;> rfl),
    h.text?_eq (c := "data_center") (by cases t <;> rfl),
    h.text?_eq (c := "rack") (by cases t <;> rfl),
    h.text?_eq (c := "release_version") (by cases t <;> rfl),
    h.textSet?_eq (c := "tokens") (by cases t <;> rfl)]

/-- Two rows of one peer with nothing but the peer's data in the same place: the second leaves out
a value at the end, has a null and an address of the other table, and another text of the tokens. -/
theorem NodeInfo.ofRow_eq_of_alike_peer :
    let peer : Host := ⟨"10.0.0.2"⟩
    let client : Host := ⟨"127.0.0.2"⟩
    let r : Row := ⟨["rack", "peer", "rpc_address", "data_center", "tokens", "schema_version"],
      [some (.int 3), some (.inet peer), some (.inet client), some (.text "dc1"),
        some (.set [.text "b", .text "a"]), some (.uuid ⟨"v1"⟩)]⟩
    let r' : Row := ⟨["release_version", "broadcast_address", "tokens", "data_center",
        "rpc_address", "peer", "rack"],
      [none, some (.inet client), some (.set [.int 7, .text "a", .text "a", .text "b"]),
        some (.text "dc1"), some (.inet client), some (.inet peer)]⟩
    Row.Alike .peers r r' ∧
      NodeInfo.ofRow id 9042 .peers r = NodeInfo.ofRow id 9042 .peers r' ∧
      NodeInfo.ofRow id 9042 .peers r =
        ⟨some ⟨client, 9042⟩, some peer, none, some "dc1", none, none, ["a", "b"]⟩ := by
  intro peer client r r'
  have step {a b : Row} (h : a.Relaid .peers b) (ha : a.columns.Nodup) (hb : b.columns.Nodup) :
      Row.Alike .peers a b :=
    .rel _ _ ⟨ha, hb, h⟩
  -- The rows between the two: the set of tokens changes, and the columns after it.
  let between (tokens : List Value) (more : List (String × Option Value)) : Row :=
    ⟨["rack", "peer", "rpc_address", "data_center", "tokens"] ++ more.map Prod.fst,
      [none, some (.inet peer), some (.inet client), some (.text "dc1"), some (.set tokens)] ++
        more.map Prod.snd⟩
  let fixed := (between [] []).entries.take 4
  let version : String × Option Value := ("schema_version", some (.uuid ⟨"v1"⟩))
  let other : String × Option Value := ("broadcast_address", some (.inet client))
  let release : String × Option Value := ("release_version", none)
  let padded : Row := ⟨r'.columns, r'.cells ++ [none]⟩
  have hmistyped : Row.Alike .peers r (between [.text "b", .text "a"] [version]) :=
    step (.mistyped [] ((between _ [version]).entries.drop 1) (k := .text) rfl rfl rfl rfl)
      (by decide) (by decide)
  have hunread : Row.Alike .peers (between [.text "b", .text "a"] [version])
      (between [.text "b", .text "a"] [other]) :=
    step (.unread (between _ []).entries [] rfl rfl rfl rfl) (by decide) (by decide)
  have hpermuted : Row.Alike .peers (between [.text "b", .text "a"] [other])
      (between [.text "a", .text "b"] [other]) :=
    step (.tokens fixed [other] (.permuted (.swap ..)) rfl rfl) (by decide) (by decide)
  have hrepeated : Row.Alike .peers (between [.text "a", .text "b"] [other])
      (between [.text "a", .text "a", .text "b"] [other]) :=
    step (.tokens fixed [other] (.repeated List.mem_cons_self) rfl rfl) (by decide) (by decide)
  have hadded : Row.Alike .peers (between [.text "a", .text "a", .text "b"] [other])
      (between [.int 7, .text "a", .text "a", .text "b"] [other]) :=
    step (.tokens fixed [other] (.added rfl) rfl rfl) (by decide) (by decide)
  have hnull : Row.Alike .peers (between [.int 7, .text "a", .text "a", .text "b"] [other])
      (between [.int 7, .text "a", .text "a", .text "b"] [other, release]) :=
    step (.null _ [] (List.append_nil _).symm rfl) (by decide) (by decide)
  have hreversed : Row.Alike .peers
      (between [.int 7, .text "a", .text "a", .text "b"] [other, release]) padded :=
    step (.permuted (List.reverse_perm _).symm) (by decide) (by decide)
  have hpadded : Row.Alike .peers r' padded := step (.padded 1 rfl) (by decide) (by decide)
  have halike : Row.Alike .peers r r' :=
    (((((((hmistyped.trans _ _ _ hunread).trans _ _ _ hpermuted).trans _ _ _ hrepeated).trans
      _ _ _ hadded).trans _ _ _ hnull).trans _ _ _ hreversed).trans _ _ _ (.symm _ _ hpadded))
  exact ⟨halike, NodeInfo.ofRow_eq_of_alike halike id 9042, by decide⟩

end ClusterClient
