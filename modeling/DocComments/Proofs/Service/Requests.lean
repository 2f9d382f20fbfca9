import DocComments.Proofs.History.Operations
import DocComments.Proofs.History.RecordFile
import DocComments.Proofs.Http.Percent
import DocComments.Proofs.Service.Run
import DocComments.Service.Route

/-! Requests one after another. A record that a memory has stays what it is under every request but the one
that deletes it, and is given to whoever asks for it. -/
namespace DocComments.Service
open History

structure Incoming where
  message : Message
  stamp : Stamp
  uptimeSecs : Nat

def State.after (s : State) (requests : List Incoming) : State :=
  requests.foldl (fun s q => (handle s q.stamp q.uptimeSecs q.message).2) s

/-- Whether a message asks by the method for the record with the id, which the address may give
percent-encoded. -/
def Message.AsksFor (message : Message) (method id : String) : Prop :=
  message.method = method ∧
    ∃ raw, Resource.ofPath? (pathOf message.uri) = some (.record raw) ∧ Http.decodedText? raw = some id

def recordUri (id : String) : String :=
  "/api/v1/history/" ++ id

private theorem pathOf_recordUri {id : String} (hquery : '?' ∉ id.toList) (hfragment : '#' ∉ id.toList) :
    pathOf (recordUri id) = "/api/v1/".toList ++ ("history/".toList ++ id.toList) := by
  have hprefix : ("/api/v1/history/".toList.all fun c => c != '?' && c != '#') = true := by decide
  have hplain : ∀ c ∈ (recordUri id).toList, (c != '?' && c != '#') = true := by
    intro c hc
    rw [recordUri, String.toList_append] at hc
    rcases List.mem_append.mp hc with hc | hc
    · exact List.all_eq_true.mp hprefix c hc
    · rw [Bool.and_eq_true, bne_iff_ne, bne_iff_ne]
      exact ⟨fun h => hquery (h ▸ hc), fun h => hfragment (h ▸ hc)⟩
  rw [pathOf, List.takeWhile_eq_self_iff.mpr hplain, recordUri, String.toList_append]
  rfl

private theorem ofPath?_record {raw : List Char} (hne : raw ≠ []) (hslash : '/' ∉ raw) :
    Resource.ofPath? ("/api/v1/".toList ++ ("history/".toList ++ raw)) = some (.record raw) := by
  obtain ⟨c, rest, rfl⟩ := List.exists_cons_of_ne_nil hne
  have hcontains : (c :: rest).contains '/' = false := by
    rwa [Bool.eq_false_iff, Ne, List.contains_iff_mem]
  rw [Resource.ofPath?, if_neg (by simp), Text.dropPrefix?_append]
  simp only [Text.dropPrefix?_append, hcontains]
  simp

/-- The address of a record asks for it, by whatever method. -/
theorem asksFor_recordUri {message : Message} {id : String} (hid : Identifier.isValid id)
    (huri : message.uri = recordUri id) : message.AsksFor message.method id := by
  have hchar {c : Char} (hc : Identifier.isIdChar c = false) : c ∉ id.toList := Identifier.not_mem_of_isValid hid hc
  refine ⟨rfl, id.toList, ?_, Http.decodedText?_of_not_mem (hchar rfl)⟩
  rw [huri, pathOf_recordUri (hchar rfl) (hchar rfl)]
  exact ofPath?_record (Identifier.ne_nil_of_isValid hid) (hchar rfl)

section Record
variable {s : State} {id : String} {record : History.Record}

/-- Whether the service has a memory, and the record in it. -/
def State.Keeps (s : State) (id : String) (record : History.Record) : Prop :=
  ∃ m, s.store = .memory m ∧ m.get? id = some record

/-- A run leaves the records of other ids. -/
theorem State.Keeps.run (h : s.Keeps id record) {stamp : Stamp} (hstamp : stamp.id ≠ id) (r : RunRequest) :
    (Service.run s stamp r).state.Keeps id record := by
  obtain ⟨m, hs, hm⟩ := h
  rw [Service.run]
  split
  · exact ⟨m, hs, hm⟩
  · split
    · exact ⟨m, hs, hm⟩
    · rw [runWith, hs]
      refine ⟨_, rfl, ?_⟩
      rw [Memory.get?_save, if_neg hstamp, hm]

/-- Only a deletion of the record itself takes it away. -/
theorem State.Keeps.handleRecord (h : s.Keeps id record) {method : String} {raw : List Char}
    (hdelete : ¬ (method = "DELETE" ∧ Http.decodedText? raw = some id)) :
    (Service.handleRecord s method raw).2.Keeps id record := by
  obtain ⟨m, hs, hm⟩ := h
  rw [Service.handleRecord]
  split
  · exact ⟨m, hs, hm⟩
  · rename_i asked hasked
    split
    · rename_i hmethod
      have hne : asked ≠ id := fun he => hdelete ⟨hmethod, he ▸ hasked⟩
      rw [hs]
      cases hfound : m.get? asked with
      | none =>
        rw [Store.perform_delete_of_none hfound]
        exact ⟨m, rfl, hm⟩
      | some found =>
        rw [Store.perform_delete_of_some hfound]
        exact ⟨m.erase asked, rfl, by rw [Memory.get?_erase, if_neg hne, hm]⟩
    · split <;> exact ⟨m, hs, hm⟩

/-- A record stays under a request that does not delete it. -/
theorem State.Keeps.handle (h : s.Keeps id record) {q : Incoming} (hstamp : q.stamp.id ≠ id)
    (hdelete : ¬ q.message.AsksFor "DELETE" id) :
    (Service.handle s q.stamp q.uptimeSecs q.message).2.Keeps id record := by
  rw [Service.handle]
  split
  · exact h
  · rename_i resource hresource
    split
    · change (handleResource s q.stamp q.uptimeSecs q.message resource).2.Keeps id record
      cases resource with
      | health => exact h
      | parse =>
        rw [handleResource]
        split <;> exact h
      | insert =>
        rw [handleResource]
        split <;> exact h
      | document =>
        rw [handleResource]
        split
        · exact h
        · rename_i r _
          have hrun := h.run hstamp r
          simp only
          split <;> exact hrun
      | history => exact h
      | record raw => exact h.handleRecord fun hraw => hdelete ⟨hraw.1, raw, hresource, hraw.2⟩
    · exact h

/-- A record stays under any requests that do not delete it. -/
theorem State.Keeps.after (h : s.Keeps id record) {requests : List Incoming}
    (hrequests : ∀ q ∈ requests, q.stamp.id ≠ id ∧ ¬ q.message.AsksFor "DELETE" id) :
    (s.after requests).Keeps id record := by
  induction requests generalizing s with
  | nil => exact h
  | cons q requests ih =>
    obtain ⟨⟨hstamp, hdelete⟩, hrest⟩ := List.forall_mem_cons.mp hrequests
    exact ih (h.handle hstamp hdelete) hrest

/-- Who asks for a record gets it. -/
theorem State.Keeps.answer (h : s.Keeps id record) {message : Message} (hget : message.AsksFor "GET" id)
    (stamp : Stamp) (uptimeSecs : Nat) :
    (Service.handle s stamp uptimeSecs message).1 = .ok record.toJson := by
  obtain ⟨m, hs, hm⟩ := h
  obtain ⟨hmethod, raw, hresource, hraw⟩ := hget
  have hgive : s.store.get id = .ok record := by
    rw [hs]
    exact Memory.get_eq_ok_iff.mpr hm
  have hrecord : Service.handleRecord s message.method raw = (.ok record.toJson, s) := by
    rw [Service.handleRecord, hraw, hmethod]
    simp only [String.reduceEq, if_false, hgive]
  have hmethods : (Resource.record raw).methods.contains message.method = true := by
    rw [hmethod]
    rfl
  rw [Service.handle, hresource]
  simp only [hmethods, if_true, handleResource, hrecord]
  rw [if_neg (by rw [hmethod]; decide)]

end Record

section Document
variable {s : State} {message : Message} {r : RunRequest}

/-- Whether a message asks to document what the request says. -/
structure Message.Submits (message : Message) (r : RunRequest) : Prop where
  method : message.method = "POST"
  resource : Resource.ofPath? (pathOf message.uri) = some .document
  body : readBody runDecoder message = .ok r

private theorem readBody_of_toOption {α : Type} {decoder : Decoder α} {a : α}
    (hjson : (message.contentType.map Http.isJson).getD false = true)
    (hsize : message.body.utf8ByteSize ≤ bodyLimit)
    (ha : (Decoder.ofText decoder message.body).toOption = some a) : readBody decoder message = .ok a := by
  rw [readBody, hjson, if_neg (by decide), if_neg (Nat.not_lt.mpr hsize)]
  cases hread : Decoder.ofText decoder message.body with
  | error e =>
    rw [hread] at ha
    cases ha
  | ok read =>
    rw [hread] at ha
    exact congrArg Except.ok (Option.some.inj ha)

/-- Whether a message brings JSON, but more of it than is taken. -/
structure Message.Oversized (message : Message) : Prop where
  json : (message.contentType.map Http.isJson).getD false = true
  size : bodyLimit < message.body.utf8ByteSize

private theorem readBody_of_oversized {α : Type} (decoder : Decoder α) (h : message.Oversized) :
    readBody decoder message = .error (.unreadable 413) := by
  rw [readBody, h.json, if_neg (by decide), if_pos h.size]

/-- A message that submits a request is within the limit. -/
theorem Message.Submits.not_oversized (h : message.Submits r) : ¬ message.Oversized := by
  intro hlarge
  have hread := h.body
  rw [readBody_of_oversized runDecoder hlarge] at hread
  cases hread

/-- A request with too large a body is refused before anything of it is read, and nothing is changed. -/
theorem handle_of_oversized {resource : Resource} (h : message.Oversized) (hmethod : message.method = "POST")
    (hresource : Resource.ofPath? (pathOf message.uri) = some resource) (hpost : resource.methods = ["POST"])
    (stamp : Stamp) (uptimeSecs : Nat) :
    handle s stamp uptimeSecs message = (.unreadable 413, s) := by
  have hmethods : resource.methods.contains message.method = true := by
    rw [hpost, hmethod]
    rfl
  have hrefused : handleResource s stamp uptimeSecs message resource = (.unreadable 413, s) := by
    cases resource with
    | health | history | record _ => exact absurd hpost (by simp [Resource.methods])
    | parse | insert | document => simp only [handleResource, readBody_of_oversized _ h]
  rw [handle, hresource]
  simp only [hmethods, if_true, hrefused]
  rw [if_neg (by rw [hmethod]; decide)]

theorem handle_of_submits (h : message.Submits r) (stamp : Stamp) (uptimeSecs : Nat) :
    handle s stamp uptimeSecs message =
      match (run s stamp r).answer with
      | .error e => (e.reply, (run s stamp r).state)
      | .ok result => (.ok result.toJson, (run s stamp r).state) := by
  have hmethods : Resource.document.methods.contains message.method = true := by
    rw [h.method]
    rfl
  have hhead : message.method ≠ "HEAD" := by
    rw [h.method]
    decide
  rw [handle, h.resource]
  simp only [hmethods, if_true, handleResource, h.body]
  cases (run s stamp r).answer <;> rw [if_neg hhead]

/-- A request to document a file is refused, before the generator is called and with nothing changed, if its
language or its style cannot be told. Otherwise it is carried out: result, source and history fit each other,
and the record that the history gained under a fresh id is given to whoever asks for it, after any requests
of which none deletes it and each that makes a record has another id for it. -/
theorem document_request {m : Memory} (hs : s.store = .memory m) (hmessage : message.Submits r) (stamp : Stamp)
    (uptimeSecs : Nat) :
    (∀ e, (r.resolveLanguage = .error e ∨
        ∃ language, r.resolveLanguage = .ok language ∧ r.resolveStyle s.settings language = .error e) →
      e.code = (400, "bad_request") ∧ handle s stamp uptimeSecs message = (e.reply, s) ∧
        (run s stamp r).calls = []) ∧
    ∀ language style, r.resolveLanguage = .ok language → r.resolveStyle s.settings language = .ok style →
      m.get? stamp.id = none →
      ∃ result record after,
        handle s stamp uptimeSecs message = (.ok result.toJson, { s with store := .memory after }) ∧
        record.id = stamp.id ∧ Kept s.generator r language style result record m after ∧
        ∀ requests : List Incoming,
          (∀ q ∈ requests, q.stamp.id ≠ result.historyId ∧ ¬ q.message.AsksFor "DELETE" result.historyId) →
          ∀ asking : Message, asking.AsksFor "GET" result.historyId → ∀ stamp' uptimeSecs',
            (handle (({ s with store := .memory after } : State).after requests) stamp' uptimeSecs' asking).1 =
              .ok record.toJson := by
  constructor
  · intro e he
    obtain ⟨hrun, hcode⟩ := run_of_unresolved stamp he
    refine ⟨hcode, ?_, by rw [hrun]⟩
    rw [handle_of_submits hmessage, hrun]
  · intro language style hlanguage hstyle hfresh
    obtain ⟨result, record, after, hanswer, hstate, hid, hkept⟩ := run_of_resolved hs hlanguage hstyle hfresh
    refine ⟨result, record, after, ?_, hid, hkept, ?_⟩
    · rw [handle_of_submits hmessage, hanswer, hstate]
    · intro requests hrequests asking hasking stamp' uptimeSecs'
      have hsaved : State.Keeps { s with store := .memory after } result.historyId record :=
        ⟨after, rfl, hkept.id ▸ hkept.saved⟩
      exact (hsaved.after hrequests).answer hasking stamp' uptimeSecs'

/-- A file with two functions of one name, of which the generator knows the first. The record is asked for by
its address after the history was listed. -/
theorem document_request_shared_name :
    let content := "def f(a):\n    pass\ndef f():\n    pass\n"
    let generator : Generator := fun r _ => if r.parameters.isEmpty then .failed else .text "Doc."
    let s : State := { State.initial "history" with generator }
    let id := "01234567-89ab-4def-8123-456789abcdef"
    let time : Instant := { date := { year := 2025, month := 1, day := 1 }, second := 0, nano := 0 }
    let message : Message := {
      method := "POST", uri := "/api/v1/document", contentType := some "application/json"
      body := "\x7b\"filename\": \"a.py\", \"content\": \"def f(a):\\n    pass\\ndef f():\\n    pass\\n\"\x7d" }
    let r : RunRequest := { filename := "a.py", content }
    let listing : Message := { method := "GET", uri := "/api/v1/history", contentType := none, body := "" }
    message.Submits r ∧
      ∃ result record after,
        handle s ⟨id, time⟩ 0 message = (.ok result.toJson, { s with store := .memory after }) ∧
        Kept generator r .python .google result record {} after ∧
        (handle (({ s with store := .memory after } : State).after [⟨listing, ⟨"other", time⟩, 1⟩]) ⟨"other", time⟩ 2
          { listing with uri := recordUri id }).1 = .ok record.toJson := by
  intro content generator s id time message r listing
  have hjson : (message.contentType.map Http.isJson).getD false = true := by decide +kernel
  have hsize : message.body.utf8ByteSize ≤ bodyLimit := by decide +kernel
  have hbody : (Decoder.ofText runDecoder message.body).toOption = some r := by decide +kernel
  have hmessage : message.Submits r := ⟨rfl, by decide, readBody_of_toOption hjson hsize hbody⟩
  obtain ⟨-, hcarried⟩ := document_request (s := s) (m := {}) rfl hmessage ⟨id, time⟩ 0
  obtain ⟨result, record, after, hhandle, hid, hkept, hlater⟩ :=
    hcarried .python .google (by decide +kernel) rfl rfl
  have hhistoryId : result.historyId = id := hkept.id.symm.trans hid
  rw [hhistoryId] at hlater
  refine ⟨hmessage, result, record, after, hhandle, hkept, hlater _ ?_ _ ?_ _ _⟩
  · intro q hq
    rw [List.mem_singleton.mp hq]
    exact ⟨by decide, fun h => absurd h.1 (by decide)⟩
  · exact asksFor_recordUri (by decide +kernel) rfl

end Document

end DocComments.Service
