import KeyedRecords.Proofs.Client.Running
import KeyedRecords.Proofs.Commit.Records
import KeyedRecords.Proofs.Field.RoundTrip
import KeyedRecords.Proofs.Query.Answers
import KeyedRecords.Proofs.Store.Listing
import KeyedRecords.Query.ResultSet
import Mathlib.Tactic.FinCases

/-!
# Reading back what was written

What a commit has accepted is what is read under its id right afterwards (`ResultSet.records_of_written`).
The store gives back other texts than it was sent, in another order: the id is among them, and the
version is the next one. Each text decodes to the value that it was made of, so the record that is
read has the values that were written and no others (`CommitScript.Recorded.readBack`).
-/

namespace KeyedRecords

open Keyspace

namespace Record

/-- The value of a field, unless it is null. -/
def value? (r : Record) (name : String) : Option Value := (r.get? name).filter fun v => !v.isNull

/-- Each field of a model has no value in the record but null, or it has one of its kind that
survives being stored. -/
structure Storable (l : Layout) (r : Record) : Prop where
  kinds : ∀ f ∈ l.fields, ∀ v, r.get? f.name = some v → v = .null ∨ v.OfKind f.kind
  survives : ∀ f ∈ l.fields, ∀ v, r.get? f.name = some v → v.Survives

/-- What is kept of a field under a name: the version if the field counts versions, and the value
otherwise. -/
def kept? (l : Layout) (r : Record) (version : Int64) (name : String) : Option Value :=
  if l.versionField = some name then some (.int version) else r.value? name

/-- What is read of a record that was written with an id and a version. -/
structure ReadBack (l : Layout) (r : Record) (id : String) (version : Int) (found : Record) :
    Prop where
  /-- The identity is what the id stands for. -/
  identity : ∃ v, l.identity.kind.decode id = .ok v ∧ found.get? l.identity.name = some v
  /-- The version is the one that was stored. -/
  version : ∀ name, l.versionField = some name →
    ∃ n : Int64, n.toInt = version ∧ found.get? name = some (.int n)
  /-- All other fields have the values that were written; null is not stored. -/
  others : ∀ f ∈ l.fields, f.primaryKey = false → l.versionField ≠ some f.name →
    found.get? f.name = r.value? f.name
  /-- There are no fields but those of the model. -/
  nothingElse : ∀ name, name ∉ l.fields.map Field.name → found.get? name = none

variable {l : Layout} {r : Record} {f : Field}

/-- A field has neither a text nor a value, or its text decodes to its value. -/
theorem Storable.text?_cases (h : r.Storable l) (hf : f ∈ l.fields) :
    r.text? f = none ∧ r.value? f.name = none ∨
      ∃ raw v, r.text? f = some raw ∧ r.value? f.name = some v ∧ f.kind.decode raw = .ok v := by
  unfold text? value?
  cases hget : r.get? f.name with
  | none => exact .inl ⟨rfl, rfl⟩
  | some v =>
    rcases h.kinds f hf v hget with rfl | hkind
    · exact .inl ⟨rfl, rfl⟩
    · obtain ⟨raw, hencode, hdecode⟩ := FieldKind.decode_encode hkind (h.survives f hf v hget)
      exact .inr ⟨raw, v, hencode, by simp [hkind.isNull], hdecode⟩

/-- A hash is read as a record if what it has under the name of each field decodes to the value
wanted. -/
theorem exists_ofHash (hl : l.WellFormed) {id : String} {v : Value}
    (hv : l.identity.kind.decode id = .ok v) {t : Table String} {wanted : String → Option Value}
    (h : ∀ f ∈ l.fields, f.primaryKey = false →
      t[f.name]? = none ∧ wanted f.name = none ∨
        ∃ raw v, t[f.name]? = some raw ∧ wanted f.name = some v ∧ f.kind.decode raw = .ok v) :
    ∃ found, ofHash l id t.toList = .ok found ∧ found.get? l.identity.name = some v ∧
      (∀ f ∈ l.fields, f.primaryKey = false → found.get? f.name = wanted f.name) ∧
      ∀ name, name ∉ l.fields.map Field.name → found.get? name = none := by
  have hdecodes : ∀ name raw f, (name, raw) ∈ t.toList → l.field? name = some f →
      f.primaryKey = false → ∃ v, wanted name = some v ∧ f.kind.decode raw = .ok v := by
    intro name raw f hraw hfield hkey
    obtain ⟨hf, rfl⟩ := hl.field?_eq_some_iff.mp hfield
    rw [Std.ExtTreeMap.mem_toList_iff_getElem?_eq_some] at hraw
    obtain ⟨hnone, -⟩ | ⟨raw', v, hraw', hwanted, hdecode⟩ := h f hf hkey
    · rw [hnone] at hraw
      cases hraw
    · obtain rfl := Option.some.inj (hraw'.symm.trans hraw)
      exact ⟨v, hwanted, hdecode⟩
  obtain ⟨found, hfound, hget⟩ := addPairs_ok hdecodes (empty.set l.identity.name v)
  -- what is passed over is as it was when only the identity was set
  have hkept : ∀ name, ¬(l.Keeps name ∧ name ∈ t) →
      found.get? name = if name = l.identity.name then some v else none := by
    intro name hnot
    rw [(hget name).2 (by simpa using hnot), get?_set]
    rfl
  refine ⟨found, bind_ok_iff.mpr ⟨v, hv, hfound⟩, ?_, fun f hf hkey => ?_, fun name hname => ?_⟩
  · rw [hkept _ fun hnot => hl.not_keeps_identity hnot.1, if_pos rfl]
  · obtain ⟨hnone, hwanted⟩ | ⟨raw, v, hraw, -, -⟩ := h f hf hkey
    · rw [hkept, if_neg (hl.name_ne hf hkey), hwanted]
      rintro ⟨-, hmem⟩
      rw [Std.ExtTreeMap.mem_iff_isSome_getElem?, hnone] at hmem
      cases hmem
    · have hmem : f.name ∈ t := by
        rw [Std.ExtTreeMap.mem_iff_isSome_getElem?, hraw]
        rfl
      exact (hget f.name).1 ⟨⟨f, hl.field?_eq_some_iff.mpr ⟨hf, rfl⟩, hkey⟩, by simpa using hmem⟩
  · rw [hkept, if_neg]
    · rintro rfl
      exact hname (List.mem_map_of_mem hl.identity.1)
    · exact fun hnot => hl.not_keeps_of_not_mem hname hnot.1

end Record

namespace CommitScript

variable {space : String} {s : Schema} {l : Layout} {r : Record} {key : IdentityKey}
  {expected : Option Int} {ws : List InstanceWrite} {ds : List DeleteSource} {ack : WriteAck}
  {ks : Keyspace}

namespace Recorded

/-- The id of a record that was written can be read, also if the store has assigned it. -/
theorem exists_identity (hs : s.layout space = .ok l) (hr : r.Storable l)
    (h : Recorded (batchOf l ws ds) (.ofRecord l key r expected) ack ks) :
    ∃ v, l.identity.kind.decode ack.id = .ok v := by
  have hidentity := (Schema.layout_wellFormed hs).identity.1
  rcases h.id with hid | ⟨-, hauto, n, hfits, hid⟩
  · have htext : r.text? l.identity = some ack.id := hid
    obtain ⟨hnone, -⟩ | ⟨raw, v, hraw, -, hdecode⟩ := hr.text?_cases hidentity
    · rw [hnone] at htext
      cases htext
    · obtain rfl := Option.some.inj (hraw.symm.trans htext)
      exact ⟨v, hdecode⟩
  · obtain ⟨k, hk, -⟩ := Option.map_eq_some_iff.mp (Number.readInt64?_intText hfits)
    rw [(Schema.layout_identity hs).2 hauto, hid]
    exact ⟨.int k, by simp only [FieldKind.decode, hk]⟩

/-- Besides the identity, a field of a record that was written has no text if there is nothing to
keep of it, and otherwise a text that decodes to what is kept. -/
theorem text_cases (hs : s.layout space = .ok l) (hr : r.Storable l) {n : Int64}
    (hn : l.versionField.isSome → ack.version = some n.toInt)
    (h : Recorded (batchOf l ws ds) (.ofRecord l key r expected) ack ks) {f : Field}
    (hf : f ∈ l.fields) (hkey : f.primaryKey = false) :
    ks.field? (l.keys.object ack.id) f.name = none ∧ r.kept? l n f.name = none ∨
      ∃ raw v, ks.field? (l.keys.object ack.id) f.name = some raw ∧
        r.kept? l n f.name = some v ∧ f.kind.decode raw = .ok v := by
  have hwell := Schema.layout_wellFormed hs
  have hversion := Schema.layout_version hs
  have hfield : ks.field? (l.keys.object ack.id) f.name =
      (storedFields (batchOf l ws ds) (.ofRecord l key r expected) ack.version ack.id).reverse.lookup
        f.name := h.fields f.name
  unfold Record.kept?
  by_cases hcounts : l.versionField = some f.name
  · rw [hfield, hn (by rw [hcounts]; rfl), if_pos hcounts,
      lookup_storedFields_version (b := batchOf l ws ds) hcounts]
    have hkind : f.kind = .int := by
      obtain ⟨g, hg, hname, hmarked⟩ := hversion.found f.name hcounts
      obtain rfl := List.inj_on_of_nodup_map hwell.distinct hg hf hname
      exact (hversion.marked g hg hmarked).2.1
    refine .inr ⟨_, _, rfl, rfl, ?_⟩
    rw [hkind]
    simp only [FieldKind.decode, Number.readInt64?_toInt]
  · rw [hfield, if_neg hcounts]
    have htext := lookup_storedFields_text hwell hf hkey hcounts key r expected ack.version ack.id
    have hcases := hr.text?_cases hf
    rwa [← htext] at hcases

/-- A record that was written is a hash, and it is read back as it was written. -/
theorem readBack (hs : s.layout space = .ok l) (hr : r.Storable l)
    (hbound : l.versionField.isSome → expected.getD 0 < Int64.maxValue.toInt)
    (h : Recorded (batchOf l ws ds) (.ofRecord l key r expected) ack ks) :
    ∃ t found, ks.hash? (l.keys.object ack.id) = .ok (some t) ∧ t.toList ≠ [] ∧
      Record.ofHash l ack.id t.toList = .ok found ∧
      r.ReadBack l ack.id (expected.getD 0 + 1) found := by
  have hwell := Schema.layout_wellFormed hs
  have hversion := Schema.layout_version hs
  -- the version expected has a next one, if there is a version
  obtain ⟨n, hn⟩ : ∃ n : Int64, l.versionField.isSome →
      n.toInt = expected.getD 0 + 1 ∧ ack.version = some n.toInt := by
    cases hname : l.versionField with
    | none => exact ⟨0, nofun⟩
    | some name =>
      obtain ⟨m, hm, hack⟩ := h.version name hname
      have hm : m.toInt = expected.getD 0 := hm
      have hlt : m < Int64.maxValue := by
        rw [Int64.lt_iff_toInt_lt, hm]
        exact hbound (by rw [hname]; rfl)
      exact ⟨m + 1, fun _ => ⟨by rw [Number.toInt_add_one hlt, hm], hack⟩⟩
  -- the id is stored at least, so the key holds a hash
  have hid : ks.field? (l.keys.object ack.id) l.identity.name = some ack.id := (h.fields _).trans
    (lookup_storedFields_identity hwell hversion key r expected ack.version ack.id)
  obtain ⟨t, hhash, hget⟩ := exists_hash_of_field? hid
  obtain ⟨v, hv⟩ := h.exists_identity hs hr
  have htexts : ∀ f ∈ l.fields, f.primaryKey = false →
      t[f.name]? = none ∧ r.kept? l n f.name = none ∨
        ∃ raw v, t[f.name]? = some raw ∧ r.kept? l n f.name = some v ∧
          f.kind.decode raw = .ok v := by
    intro f hf hkey
    rw [hget]
    exact h.text_cases hs hr (fun hsome => (hn hsome).2) hf hkey
  obtain ⟨found, hfound, hidentity, hkept, hnone⟩ := Record.exists_ofHash hwell hv htexts
  refine ⟨t, found, hhash, ?_, hfound, ⟨v, hv, hidentity⟩, ?_, ?_, hnone⟩
  · rw [← hget, ← Std.ExtTreeMap.mem_toList_iff_getElem?_eq_some] at hid
    exact List.ne_nil_of_mem hid
  · intro name hname
    obtain ⟨f, hf, rfl, hmarked⟩ := hversion.found name hname
    refine ⟨n, (hn (by rw [hname]; rfl)).1, ?_⟩
    rw [hkept f hf (hversion.marked f hf hmarked).2.2, Record.kept?, if_pos hname]
  · intro f hf hkey hcounts
    rw [hkept f hf hkey, Record.kept?, if_neg hcounts]

end Recorded

end CommitScript

/-- A commit that a server has answered has run its script on the keys that had not expired. -/
theorem Server.execute_commit_ok {server server' : Server} {b : Batch} {reply : BatchReply}
    (h : server.execute (.eval (.commit b)) = (.ok (.commit reply), server')) :
    server.sweep.space.run (CommitScript.run b) = (.ok reply, server'.space) := by
  obtain ⟨hreply, hserver⟩ := Prod.mk.inj h
  refine Keyspace.execute_commit_ok (Prod.ext (Except.ok.inj hreply) ?_)
  exact congrArg Server.space hserver

namespace ResultSet

variable {space : String} {s : Schema} {l : Layout} {r : Record} {client : Client}

/-- The record of one id is read from the hash under its key. -/
theorem runFrom_records_singleton (hclient : client.Works) {id : String} {t : Table String}
    (hhash : client.server.sweep.space.hash? (l.keys.object id) = .ok (some t))
    (hne : t.toList ≠ []) {found : Record} (hfound : Record.ofHash l id t.toList = .ok found) :
    (runFrom client (records l [id] none)).1 = .ok [(id, found)] := by
  have hreply : (client.server.sweep.space.executeAll [.hgetall (l.keys.object id)]).1 =
      [.pairs t.toList] := by
    unfold executeAll
    rw [execute_hgetall hhash]
    rfl
  have hread : readRecords l none [(id, .pairs t.toList)] = .ok [(id, found)] := by
    simp only [readRecords, storedPairs, Reply.asPairs]
    rw [bind_ok_iff]
    refine ⟨t.toList, rfl, ?_⟩
    rw [if_neg (by simpa [List.isEmpty_iff] using hne), bind_ok_iff]
    exact ⟨found, hfound, rfl⟩
  unfold records
  simp only [List.isEmpty_cons, Bool.false_eq_true, if_false, Option.map_none]
  rw [runFrom_bind_ok hclient.runFrom_checkpoint, List.map_singleton, recordCommand,
    runFrom_bind_ok (hclient.runFrom_pipeline _), hreply]
  simp only [List.length_singleton, ne_eq, not_true_eq_false, if_false]
  exact congrArg Prod.fst (Operation.runFrom_ofExcept hread _)

/-- What a commit writes is what a read returns. If the store accepts the write of a record, and no
later write of the batch gets its id, then from that time on, as long as nothing else is written,
reading the id answers one record, whatever else is in the batch and whatever was stored before: it
has the identity that the id stands for, the version after the expected one, unless that is the
greatest, all other values that were written, and nothing more. -/
theorem records_of_written (hs : s.layout space = .ok l) (hr : r.Storable l)
    {server server' : Server} {ws₁ ws₂ : List InstanceWrite} {ds : List DeleteSource}
    {key : IdentityKey} {expected : Option Int} {reply : BatchReply}
    (hcommit : server.execute (.eval (.commit
      (CommitScript.batchOf l (ws₁ ++ .ofRecord l key r expected :: ws₂) ds))) =
        (.ok (.commit reply), server'))
    {rs₁ rs₂ : List WriteReply} {ack : WriteAck}
    (hreply : reply.writes = rs₁ ++ ⟨key, .ok ack⟩ :: rs₂) (hplace : rs₁.length = ws₁.length)
    (hlast : ∀ r ∈ rs₂, ∀ ack', r.result = .ok ack' → ack'.id ≠ ack.id)
    (hbound : l.versionField.isSome → expected.getD 0 < Int64.maxValue.toInt)
    (hclient : client.Works) (hspace : client.server.space = server'.space) :
    ∃ found, (runFrom client (records l [ack.id] none)).1 = .ok [(ack.id, found)] ∧
      r.ReadBack l ack.id (expected.getD 0 + 1) found := by
  obtain ⟨ws, w, ws', hws, hlength, -, hrecorded⟩ :=
    CommitScript.recorded_of_run (Server.execute_commit_ok hcommit) hreply hlast
  -- the reply is that to the write of the record
  obtain ⟨rfl, hrest⟩ := List.append_inj hws (hplace.symm.trans hlength.symm)
  obtain ⟨rfl, rfl⟩ := List.cons.inj hrest
  -- the record does not expire, so it is there still when it is read
  have hsame : client.server.sweep.space.entries[l.keys.object ack.id]? =
      server'.space.entries[l.keys.object ack.id]? := by
    rw [← hspace]
    exact Lasts.getElem?_sweep (hspace ▸ hrecorded.lasts) client.server.clock.now
  obtain ⟨t, found, hhash, hne, hfound, hback⟩ :=
    (hrecorded.of_entries hsame).readBack hs hr hbound
  exact ⟨found, runFrom_records_singleton hclient hhash hne hfound, hback⟩

/-- A document is written over another one, with values of all kinds, but without the weight that the
other one had. A day later it is read, and there is no weight. -/
theorem records_of_written_star :
    ∃ (r found : Record) (server : Server) (client : Client),
      (server.space.field? (Request.starLayout.keys.object "b") "weight").isSome ∧
        (runFrom client (records Request.starLayout ["b"] none)).1 = .ok [("b", found)] ∧
        r.ReadBack Request.starLayout "b" 2 found ∧ found.get? "weight" = none := by
  let tags : Json := .object [("tags", .list [.text "bright", .null])]
  let r : Record :=
    ⟨[("slug", .text "b"), ("rank", .float (.ofInt 3)), ("flag", .bool true),
      ("blob", .bytes [0, 255]), ("meta", .json tags), ("serial", .int 7), ("weight", .null)]⟩
  have hr : r.Storable Request.starLayout := by
    have htext : tags.write = "\x7b\"tags\":[\"bright\",null]\x7d" := by decide +kernel
    have htags : Json.read? tags.write = some tags := by
      rw [htext]
      rfl
    have hrank : (Value.float (.ofInt 3)).Survives := Value.survives_float (by decide +kernel)
    constructor
    · intro f hf v hv
      fin_cases hf <;> cases hv
      · exact .inr (.text _)
      · exact .inr (.float _)
      · exact .inr (.bool _)
      · exact .inr (.bytes _)
      · exact .inr (.json _)
      · exact .inr (.int _)
      · exact .inl rfl
    · intro f hf v hv
      fin_cases hf <;> cases hv
      · trivial
      · exact hrank
      · trivial
      · trivial
      · exact htags
      · trivial
      · trivial
  let key : IdentityKey := "star_doc:b"
  let server : Server := ⟨Request.starSpace, .manual 0, ⟨0, 0, 0⟩⟩
  let c : Command := .eval (.commit
    (CommitScript.batchOf Request.starLayout ([] ++ .ofRecord Request.starLayout key r (some 1) :: [])
      []))
  have haccepted : (((server.execute c).1 >>= Reply.asCommit).toOption.map fun reply =>
      reply.writes.map fun w => (w.identity, w.result.toOption)) =
        some [(key, some ⟨"b", some 2⟩)] := by decide +kernel
  obtain ⟨reply, server', hcommit, hwrites⟩ : ∃ reply server',
      server.execute c = (.ok (.commit reply), server') ∧
        reply.writes = [⟨key, .ok ⟨"b", some 2⟩⟩] := by
    rcases hexecute : server.execute c with ⟨result, server'⟩
    rw [hexecute] at haccepted
    cases result with
    | error e => cases haccepted
    | ok answer =>
      cases answer with
      | commit reply =>
        obtain ⟨⟨k, result⟩, hwrites, hack⟩ := List.map_eq_singleton_iff.mp
          (Option.some.inj haccepted)
        obtain ⟨rfl, hack⟩ := Prod.mk.inj hack
        cases result with
        | error e => cases hack
        | ok ack =>
          cases hack
          exact ⟨reply, server', rfl, hwrites⟩
      | _ => cases haccepted
  let client := Client.ofServer { server' with clock := .manual 86400000 }
  have hclient : client.Works := ⟨rfl, rfl⟩
  have hspace : client.server.space = server'.space := rfl
  have hbound : Request.starLayout.versionField.isSome →
      (some 1).getD 0 < Int64.maxValue.toInt := fun _ => by decide
  have hreplies : reply.writes = [] ++ ⟨key, .ok ⟨"b", some 2⟩⟩ :: [] := hwrites
  obtain ⟨found, hfound, hback⟩ := records_of_written Request.layout_starDoc hr hcommit hreplies rfl
    (List.forall_mem_nil _) hbound hclient hspace
  have hweight := hback.others (Sample.indexed "weight" (.optional .float64)).field
    (List.mem_of_getElem? (i := 7) rfl) rfl (by decide)
  exact ⟨r, found, server, client, by decide +kernel, hfound, hback, hweight⟩

/-- The record of a document with a flag. -/
def flagRecord (flag : Bool) : Record := ⟨[("slug", .text "b"), ("flag", .bool flag)]⟩

/-- A commit that writes the record of each flag under the version that is expected. -/
def flagCommit (ks : Keyspace) (flags : List (Bool × Int)) : Except Error Reply × Server :=
  let ws := flags.map fun (flag, expected) =>
    .ofRecord Request.starLayout "star_doc:b" (flagRecord flag) (some expected)
  Server.execute ⟨ks, .manual 0, ⟨0, 0, 0⟩⟩
    (.eval (.commit (CommitScript.batchOf Request.starLayout ws [])))

/-- The writes that are accepted in a commit. -/
def flagsAccepted (answer : Except Error Reply × Server) : List WriteAck :=
  match answer.1 >>= Reply.asCommit with
  | .ok reply => reply.writes.filterMap (·.result.toOption)
  | .error _ => []

/-- The flag and the version that are read behind a commit. -/
def flagsRead (answer : Except Error Reply × Server) : List (Option Bool × Option Int64) :=
  match (runFrom (.ofServer answer.2) (records Request.starLayout ["b"] none)).1 with
  | .ok rows => rows.map fun (_, r) =>
    ((r.get? "flag").bind Value.asBool?, (r.get? "rev").bind Value.asInt?)
  | .error _ => []

/-- Of two writes that are accepted under one id, the second is read. And behind the greatest
version, the least is read. -/
theorem flag_read_otherwise :
    Sample.starDoc.schema.layout "kvm." = .ok Request.starLayout ∧
    (∀ flag, (flagRecord flag).Storable Request.starLayout) ∧
    (∃ answer, flagCommit Request.starSpace [(true, 1), (false, 2)] = answer ∧
      flagsAccepted answer = [⟨"b", some 2⟩, ⟨"b", some 3⟩] ∧
      flagsRead answer = [(some false, some 3)]) ∧
    ∃ ks answer, (⟨∅, 0⟩ : Keyspace).executeAll [.hset (Request.starLayout.keys.object "b")
        [("rev", Number.intText Int64.maxValue.toInt)]] = ([.int 1], ks) ∧
      flagCommit ks [(true, Int64.maxValue.toInt)] = answer ∧
      flagsAccepted answer = [⟨"b", some Int64.minValue.toInt⟩] ∧
      flagsRead answer = [(some true, some Int64.minValue)] := by
  refine ⟨Request.layout_starDoc, fun flag => ⟨?_, ?_⟩, ⟨_, rfl, by decide +kernel⟩,
    ⟨_, _, rfl, rfl, by decide +kernel⟩⟩
  · intro f hf v hv
    fin_cases hf <;> cases hv
    · exact .inr (.text _)
    · exact .inr (.bool _)
  · intro f hf v hv
    fin_cases hf <;> cases hv <;> trivial

end ResultSet

end KeyedRecords
