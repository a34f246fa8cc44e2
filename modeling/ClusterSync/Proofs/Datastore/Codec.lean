import ClusterSync.Proofs.Datastore.Interchange
import ClusterSync.Proofs.Datastore.Secured
import ClusterSync.Proofs.Json.Sound

/-!
# Values and their bytes

**Theorem (`Value.codec`).** A value has bytes under a key exactly if it has the form that the key
asks for. Bare text and truth values are always read back from their bytes. A structured value
without floating-point numbers is read back exactly if it is not nested too deep and none of its
objects begins with the key that marks an embedded text. The values that bytes are decoded to can be
encoded again, and so can be read back under the same condition.

After a write that has succeeded, its key is read as what was written, at the revision of the write.
-/

namespace ClusterSync

open Text Json

theorem fromUTF8?_toUTF8 (s : String) : String.fromUTF8? s.toUTF8 = some s := by
  unfold String.fromUTF8?
  rw [String.toUTF8_eq_toByteArray, dif_pos s.isValidUTF8]
  rfl

namespace Value

/-- A structured value is canonical and has no numbers but integers. -/
def IsProper : Value → Prop
  | .structured j => j.Canonical ∧ j.Integral
  | .text _ | .flag _ => True

/-- A structured value has no floating-point numbers. -/
def IsExact : Value → Prop
  | .structured j => j.IsExact
  | .text _ | .flag _ => True

/-- A structured value is not nested too deep, and none of its objects begins with the key that
marks an embedded text. -/
def IsPlain : Value → Prop
  | .structured j => j.nesting ≤ maxDepth ∧ j.Unmarked
  | .text _ | .flag _ => True

variable {key : Key} {value : Value} {bytes : Bytes}

theorem encode_ok_iff : (∃ bytes, value.encode key = .ok bytes) ↔ value.HasShape key.shape := by
  unfold encode HasShape
  cases key.shape <;> cases value <;> simp

/-- What a key of either structured form makes of bytes. -/
theorem decode_structured (h : key.shape = .node ∨ key.shape = .policy) (bytes : Bytes) :
    decode key bytes = match (String.fromUTF8? bytes).bind parse? with
      | some j => .ok (.structured j)
      | none => .error (.encoding key.describe notJson) := by
  rcases h with h | h <;> cases hparse : (String.fromUTF8? bytes).bind parse? <;>
    simp only [decode, h, hparse]

theorem decode_structured_iff (h : key.shape = .node ∨ key.shape = .policy) {j : Json} :
    decode key bytes = .ok (.structured j) ↔ (String.fromUTF8? bytes).bind parse? = some j := by
  rw [decode_structured h]
  cases (String.fromUTF8? bytes).bind parse? <;> simp

theorem decode_text (h : key.shape = .text) (s : String) :
    decode key s.toUTF8 = .ok (.text s) := by
  unfold decode Bytes.text
  rw [h, fromUTF8?_toUTF8]

theorem decode_flag (h : key.shape = .flag) (bytes : Bytes) :
    decode key bytes = .ok (.flag (decide (bytes = flagBytes true))) := by
  unfold decode
  rw [h]

theorem decode_encode_iff (hp : value.IsProper) (h : value.encode key = .ok bytes) :
    decode key bytes = .ok value ↔ value.IsPlain := by
  unfold encode at h
  split at h
  · rename_i s hshape
    cases h
    exact iff_of_true (decode_text hshape s) trivial
  · rename_i b hshape
    cases h
    refine iff_of_true ((decode_flag hshape _).trans ?_) trivial
    cases b <;> rfl
  · rename_i j hshape
    cases h
    rw [decode_structured_iff (.inl hshape), fromUTF8?_toUTF8]
    exact parse?_render_iff_of_integral hp.1 hp.2
  · rename_i j hshape
    cases h
    rw [decode_structured_iff (.inr hshape), fromUTF8?_toUTF8]
    exact parse?_render_iff_of_integral hp.1 hp.2
  · cases h

/-- What bytes are decoded to has the form that the key asks for, and is proper if it is exact. -/
theorem decoded (h : decode key bytes = .ok value) :
    value.HasShape key.shape ∧ (value.IsExact → value.IsProper) := by
  have hstructured : key.shape = .node ∨ key.shape = .policy →
      ∃ j, value = .structured j ∧ j.Sound := by
    intro hshape
    rw [decode_structured hshape] at h
    split at h
    · rename_i j hj
      obtain ⟨s, -, hs⟩ := Option.bind_eq_some_iff.1 hj
      exact ⟨j, (Except.ok.inj h).symm, sound_parse? hs⟩
    · cases h
  cases hshape : key.shape with
  | node =>
    obtain ⟨j, rfl, hj⟩ := hstructured (.inl hshape)
    exact ⟨trivial, fun hx => ⟨hj.canonical, hj.integral hx⟩⟩
  | policy =>
    obtain ⟨j, rfl, hj⟩ := hstructured (.inr hshape)
    exact ⟨trivial, fun hx => ⟨hj.canonical, hj.integral hx⟩⟩
  | text =>
    unfold decode at h
    rw [hshape] at h
    dsimp only at h
    split at h <;> cases h
    exact ⟨trivial, fun _ => trivial⟩
  | flag =>
    rw [decode_flag hshape] at h
    cases h
    exact ⟨trivial, fun _ => trivial⟩

end Value

/-! ## Reading what was written -/

/-- A put under a condition has succeeded at a revision. -/
def Backend.Puts {σ : Type} (backend : Backend σ) (path : String) (bytes : Bytes)
    (ttl : Option Duration) (revision : Revision) (after : σ) : Prop :=
  ∃ (c : Comparison) (before : σ) (o : Outcome),
    backend.commit (Pair.putIf c path bytes ttl) before = (.ok o, after) ∧
      o.succeeded = true ∧ o.revision = revision

section Writes

variable {σ : Type} {backend : Backend σ} {p : Pair} {s after : σ} {journal journal' : Journal}
  {r : Revision}

variable {path : String} {bytes : Bytes}

/-- A conditional put whose result is a revision has succeeded at that revision. -/
theorem puts_of_run {c : Comparison} {ttl : Option Duration} {operation : String}
    {result : Outcome → Except StoreError Revision}
    (hresult : ∀ o, result o = .ok r → o.succeeded = true ∧ o.revision = r)
    (h : (Dialogue.commit (Pair.putIf c path bytes ttl) fun reply =>
      .finish operation (reply.bind result)).run backend s journal = (.ok r, after, journal')) :
    backend.Puts path bytes ttl r after := by
  cases hcommit : backend.commit (Pair.putIf c path bytes ttl) s with
  | mk reply store =>
    simp only [Dialogue.run, Dialogue.finish, hcommit, Prod.mk.injEq] at h
    obtain ⟨hreply, rfl, -⟩ := h
    cases reply with
    | error e => cases hreply
    | ok o => exact ⟨c, s, o, hcommit, hresult o hreply⟩

theorem puts_of_create (hp : p.key.path = .ok path) (hv : p.value.encode p.key = .ok bytes)
    (h : p.create.run backend s journal = (.ok r, after, journal')) :
    backend.Puts path bytes p.ttl r after := by
  rw [Pair.create, Pair.encoded_eq hp hv] at h
  refine puts_of_run (fun o ho => ?_) h
  split at ho
  · exact ⟨‹_›, Except.ok.inj ho⟩
  · cases ho

theorem puts_of_overwrite {ttl : Option Duration} {expected : Revision}
    (h : (Pair.overwrite path bytes ttl expected).run backend s journal =
      (.ok r, after, journal')) : backend.Puts path bytes ttl r after := by
  refine puts_of_run (fun o ho => ?_) h
  split at ho
  · exact ⟨‹_›, Except.ok.inj ho⟩
  · split at ho <;> cases ho

theorem puts_of_update (hp : p.key.path = .ok path) (hv : p.value.encode p.key = .ok bytes)
    (h : p.update.run backend s journal = (.ok r, after, journal')) :
    backend.Puts path bytes p.ttl r after := by
  rw [Pair.update, Pair.encoded_eq hp hv] at h
  cases hr : p.revision with
  | some expected =>
    simp only [Dialogue.bind, hr] at h
    exact puts_of_overwrite h
  | none =>
    simp only [Dialogue.bind, hr, Dialogue.run] at h
    cases hread : backend.read path s with
    | mk reply store =>
      simp only [hread] at h
      split at h
      · cases h
      · exact puts_of_overwrite h
      · exact puts_of_overwrite h

/-- A write with a revision as its result has found a path and bytes for its pair. -/
theorem exists_encoded
    (h : p.create.run backend s journal = (.ok r, after, journal') ∨
      p.update.run backend s journal = (.ok r, after, journal')) :
    ∃ path bytes, p.key.path = .ok path ∧ p.value.encode p.key = .ok bytes := by
  unfold Pair.create Pair.update Pair.encoded at h
  cases hp : p.key.path with
  | error e => simp [hp, Dialogue.bind, Dialogue.run] at h
  | ok path =>
    cases hv : p.value.encode p.key with
    | error e => simp [hp, hv, Dialogue.bind, Dialogue.run] at h
    | ok bytes => exact ⟨path, bytes, rfl, rfl⟩

end Writes

/-- A path that has been put is read as what has been put. -/
def Backend.Remembers {σ : Type} (backend : Backend σ) : Prop :=
  ∀ path bytes ttl revision after, backend.Puts path bytes ttl revision after →
    (backend.read path after).1 = .ok (some ⟨bytes, revision⟩)

theorem Table.remembers : Table.backend.Remembers := by
  rintro path bytes ttl _ _ ⟨c, t, o, hcommit, hsucceeded, rfl⟩
  have hcommit : ((Except.ok (t.commit (Pair.putIf c path bytes ttl)).1 :
      Except StoreError Outcome), (t.commit (Pair.putIf c path bytes ttl)).2) = (.ok o, _) := hcommit
  rw [Table.commit_putIf] at hcommit
  split at hcommit <;> cases hcommit
  · change Except.ok ((t.put path bytes ttl).get? path) = _
    rw [Table.get?, Table.getElem?_put_self]
    rfl
  · cases hsucceeded

/-- Whatever lease is asked for, a put becomes one operation. -/
theorem Etcd.prepare_put {σ : Type} {service : Etcd.Service σ} {path : String} {bytes : Bytes}
    {ttl : Option Duration} {s s' : σ} {ops : List Etcd.Operation}
    (h : Etcd.prepare service [.put path bytes ttl] s = (.ok ops, s')) :
    ∃ lease, ops = [.put path bytes lease] := by
  cases ttl with
  | none =>
    cases h
    exact ⟨0, rfl⟩
  | some ttl =>
    unfold Etcd.prepare at h
    cases hgrant : service.leaseGrant (Etcd.leaseSeconds ttl) s with
    | mk reply granted =>
      cases reply with
      | error status =>
        simp only [hgrant] at h
        cases h
      | ok lease =>
        simp only [hgrant] at h
        cases h
        exact ⟨lease, rfl⟩

theorem Etcd.Service.Serves.remembers {σ : Type} {service : Etcd.Service σ}
    {view : σ → Etcd.Server} (hs : service.Serves view) :
    (Etcd.backend service).Remembers := by
  rintro path bytes ttl _ after ⟨c, s, o, hcommit, hsucceeded, rfl⟩
  have hcommit : Etcd.commit service (Pair.putIf c path bytes ttl) s = (.ok o, after) := hcommit
  unfold Etcd.commit at hcommit
  split at hcommit
  · cases hcommit
  · rename_i ops s' hops
    obtain ⟨lease, rfl⟩ := Etcd.prepare_put hops
    have hfailure : Etcd.prepare service (Pair.putIf c path bytes ttl).failure s' =
        (.ok [], s') := rfl
    rw [hfailure] at hcommit
    dsimp only at hcommit
    obtain ⟨hreply, hafter⟩ := hs.txn c [.put path bytes lease] [] s'
    rw [Etcd.Server.commit_put] at hreply hafter
    cases htxn : service.txn (Pair.putIf c path bytes ttl).comparison [.put path bytes lease] [] s'
      with
    | mk reply after' =>
      have htxn' : service.txn c [.put path bytes lease] [] s' = (reply, after') := htxn
      rw [htxn'] at hreply hafter
      rw [htxn] at hcommit
      split at hreply <;> cases hreply <;> cases hcommit
      · rw [if_pos ‹_›] at hafter
        have hfound : (view after).entries[path]? = some ⟨bytes, (view s').revision + 1⟩ :=
          hafter ▸ Std.ExtTreeMap.getElem?_insert_self
        exact (hs.read path (s := after)).1.trans (congrArg Except.ok hfound)
      · cases hsucceeded

/-- Right after a pair has been written at a revision, its key is read as the pair at that revision,
provided that its value is read back from its bytes. -/
def Backend.Returns {σ : Type} (backend : Backend σ) : Prop :=
  ∀ (p : Pair) (s after : σ) (journal journal' : Journal) (r : Revision), p.value.IsProper →
    (p.create.run backend s journal = (.ok r, after, journal') ∨
      p.update.run backend s journal = (.ok r, after, journal')) →
    ((p.key.fetch.run backend after journal').1 = .ok (some ⟨p.key, p.value, some r, none⟩) ↔
      p.value.IsPlain)

theorem Backend.Remembers.returns {σ : Type} {backend : Backend σ} (hb : backend.Remembers) :
    backend.Returns := by
  intro p s after journal journal' r hproper h
  obtain ⟨path, bytes, hp, hv⟩ := exists_encoded h
  have hputs : backend.Puts path bytes p.ttl r after :=
    h.elim (puts_of_create hp hv) (puts_of_update hp hv)
  have hread := hb path bytes p.ttl r after hputs
  rw [← Value.decode_encode_iff hproper hv, Key.fetch, hp]
  simp only [Dialogue.run, hread]
  cases hdecode : Value.decode p.key bytes <;> simp [hdecode, Except.bind]

namespace Value

/-- Encoding and decoding under a key undo each other, but for structured values that are nested too
deep or have an object that begins with the key that marks an embedded text. -/
theorem codec (key : Key) :
    (∀ value : Value, (∃ bytes, value.encode key = .ok bytes) ↔ value.HasShape key.shape) ∧
    (∀ (value : Value) (bytes : Bytes), value.IsProper → value.encode key = .ok bytes →
      (decode key bytes = .ok value ↔ value.IsPlain)) ∧
    (∀ (bytes : Bytes) (value : Value), decode key bytes = .ok value → value.IsExact →
      ∃ bytes', value.encode key = .ok bytes' ∧
        (decode key bytes' = .ok value ↔ value.IsPlain)) ∧
    (∀ (text : String) (j : Json), key.shape = .node ∨ key.shape = .policy →
      parseDirect? text = some j →
      decode key text.toUTF8 = .ok (.structured j) ∧ j.nesting ≤ maxDepth) ∧
    Table.backend.Returns ∧
    ∀ (σ : Type) (service : Etcd.Service σ) (view : σ → Etcd.Server), service.Serves view →
      (Etcd.backend service).Returns := by
  refine ⟨fun _ => encode_ok_iff, fun _ _ => decode_encode_iff, fun bytes value h hx => ?_,
    fun text j hshape h => ⟨?_, nesting_parseDirect? h⟩, Table.remembers.returns,
    fun σ service view hs => hs.remembers.returns⟩
  · obtain ⟨hshape, hproper⟩ := decoded h
    obtain ⟨bytes', henc⟩ := encode_ok_iff.2 hshape
    exact ⟨bytes', henc, decode_encode_iff (hproper hx) henc⟩
  · rw [decode_structured_iff hshape, fromUTF8?_toUTF8]
    exact parse?_of_parseDirect? h

section Example

def sampleJson : Json :=
  .obj [("a", .arr [.num (.int (-2)), .str "\u00fc\n\x01", .null]), ("b", .bool true)]

def samplePair : Pair := ⟨.node "n1", .structured sampleJson, none, none⟩

theorem codec_of_sample :
    samplePair.value.HasShape samplePair.key.shape ∧ samplePair.value.IsProper ∧
    decode samplePair.key sampleJson.render.toUTF8 = .ok samplePair.value ∧
    (∃ bytes, samplePair.value.encode samplePair.key = .ok bytes ∧
      decode samplePair.key bytes = .ok samplePair.value) ∧
    decode samplePair.key "[ 1,[2 ] ]".toUTF8 = .ok (.structured (.arr [nat 1, .arr [nat 2]])) ∧
    Table.backend.Returns ∧ (Etcd.backend Etcd.Server.service).Returns := by
  have hcanonical : sampleJson.Canonical := by
    simp only [sampleJson, Canonical, CanonicalItems, CanonicalFields]
    decide +kernel
  have hintegral : sampleJson.Integral := by
    simp [sampleJson, Integral, Each, EachItem, EachField, Number.IsInteger]
  have hunmarked : sampleJson.Unmarked := by
    simp [sampleJson, Unmarked, Each, EachItem, EachField, embeddedKey]
  have hproper : samplePair.value.IsProper := ⟨hcanonical, hintegral⟩
  have hplain : samplePair.value.IsPlain := ⟨by decide, hunmarked⟩
  have hdirect : parseDirect? "[ 1,[2 ] ]" = some (.arr [nat 1, .arr [nat 2]]) := by
    decide +kernel
  obtain ⟨-, hdecode, hagain, hread, htable, hetcd⟩ := codec samplePair.key
  have hencoded : samplePair.value.encode samplePair.key = .ok sampleJson.render.toUTF8 := rfl
  have hdecoded := (hdecode _ _ hproper hencoded).2 hplain
  obtain ⟨bytes, hbytes, hback⟩ := hagain _ _ hdecoded hintegral.isExact
  exact ⟨trivial, hproper, hdecoded, ⟨bytes, hbytes, hback.2 hplain⟩,
    (hread _ _ (.inl rfl) hdirect).1, htable, hetcd _ _ _ Etcd.Server.serves_service⟩

/-- The least key of an object is in front when the object is encoded. -/
def markedJson : Json := .obj [(embeddedKey, .str "x"), ("z", nat 1)]

theorem unread_of_marked :
    (Value.structured markedJson).IsProper ∧ markedJson.nesting ≤ maxDepth ∧
    decode (.node "h1") "\x7b\"z\":1,\"$serde_json::private::RawValue\":\"x\"\x7d".toUTF8 =
      .ok (.structured markedJson) ∧
    (Value.structured markedJson).encode (.node "h1") = .ok markedJson.render.toUTF8 ∧
    decode (.node "h1") markedJson.render.toUTF8 ≠ .ok (.structured markedJson) := by
  have hcanonical : markedJson.Canonical := by
    simp only [markedJson, Canonical, CanonicalFields, nat]
    decide +kernel
  have hintegral : markedJson.Integral := by
    simp [markedJson, Integral, Each, EachField, nat, Number.IsInteger]
  have hparse : parse? "\x7b\"z\":1,\"$serde_json::private::RawValue\":\"x\"\x7d" =
      some markedJson := by decide +kernel
  have hproper : (Value.structured markedJson).IsProper := ⟨hcanonical, hintegral⟩
  have hencoded : (Value.structured markedJson).encode (.node "h1") =
    .ok markedJson.render.toUTF8 := rfl
  have hmarked : ¬ markedJson.Unmarked := fun h => h.self _ _ rfl rfl
  refine ⟨hproper, by decide, ?_, hencoded, fun h => ?_⟩
  · rw [decode_structured_iff (.inl rfl), fromUTF8?_toUTF8, Option.bind_some, hparse]
  · exact hmarked ((decode_encode_iff hproper hencoded).1 h).2

end Example

end Value

end ClusterSync
