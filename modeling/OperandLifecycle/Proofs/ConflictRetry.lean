import OperandLifecycle.Cluster.Live
import OperandLifecycle.Proofs.Triples
import OperandLifecycle.Proofs.Members
/-!
# Retrying a write on a conflict

A write of the live manager (`guarded`) makes an attempt, and when the attempt meets a conflict
and retries are left, it reads the resource version the cluster holds, sets it in the resource
and tries again. The recursion of `retrying` runs on a fuel of one more than the replies left
in the client's script: it is not the retry count, which need not be a natural number.

For a retry count `n`, the fuel is never what stops the retries: a conflict is always a reply
of the script, so every retry uses one up (`ApiM.ConflictTakes`). The write is then
`Write.retries n`, the retry discipline with `n` retries and no fuel (`guarded_eq_retries`).
From that discipline and the footprint of each attempt (`ApiM.Footprint`): an update makes at
most `n + 1` replace calls; a retry sends the resource version it has just read; an update
answers whether the version it got back differs from the one it sent; a status write that
finds the status already set writes nothing; and a create that meets a conflict found the
object there.
-/

namespace OperandLifecycle

/-- Whether a failure is a conflict, the one failure a write retries. -/
def Failure.isConflict (e : Failure) : Bool := e.kindName == Cluster.StatusError.conflict.name

namespace Cluster

open Json

/-! ## Calls in the log -/

/-- Whether a log entry records a call of `verb`. -/
def Api.isCallOf (verb : String) : Value → Bool
  | .obj fs =>
    match Fields.get? fs "call" with
    | some (.str v) => v == verb
    | _ => false
  | _ => false

/-- The number of calls of `verb` in a log. -/
def Api.callsOf (verb : String) (log : List Value) : Nat := log.countP (Api.isCallOf verb)

theorem Api.callsOf_append (verb : String) (xs ys : List Value) :
    Api.callsOf verb (xs ++ ys) = Api.callsOf verb xs + Api.callsOf verb ys :=
  List.countP_append ..

theorem Api.callsOf_entry (verb v : String) (rest : Fields) :
    Api.callsOf verb [.obj (("call", .str v) :: rest)] = if v = verb then 1 else 0 := by
  by_cases h : v = verb <;> simp [Api.callsOf, Api.isCallOf, Fields.get?_cons, h]

/-! ## Footprints

A run against the client takes replies from the front of its script and adds calls at the end
of its log. `Api.Moves k a a'` says that the run from `a` to `a'` did so with at most `k`
replace calls; it composes along a run, so a footprint of each step gives one of the whole. -/

/-- The run from `a` to `a'` took replies from the front of the script and added calls at the
end of the log, at most `k` of them replace calls. -/
structure Api.Moves (k : Nat) (a a' : Api) : Prop where
  script : a'.script <:+ a.script
  log : ∃ added, a'.log = a.log ++ added ∧ Api.callsOf "replace" added ≤ k

namespace Api.Moves

variable {k m : Nat} {a a₁ a₂ : Api}

theorem refl (a : Api) : Api.Moves 0 a a :=
  ⟨List.suffix_refl _, [], by simp, by simp [Api.callsOf]⟩

theorem trans (h₁ : Api.Moves k a a₁) (h₂ : Api.Moves m a₁ a₂) : Api.Moves (k + m) a a₂ := by
  obtain ⟨hs₁, added₁, hl₁, hc₁⟩ := h₁
  obtain ⟨hs₂, added₂, hl₂, hc₂⟩ := h₂
  refine ⟨hs₂.trans hs₁, added₁ ++ added₂, by rw [hl₂, hl₁, List.append_assoc], ?_⟩
  rw [Api.callsOf_append]
  omega

theorem mono (h : Api.Moves k a a₁) (hkm : k ≤ m) : Api.Moves m a a₁ :=
  ⟨h.script, h.log.imp fun _ ⟨hl, hc⟩ => ⟨hl, hc.trans hkm⟩⟩

theorem length_le (h : Api.Moves k a a₁) : a₁.script.length ≤ a.script.length :=
  h.script.length_le

theorem calls_le (h : Api.Moves k a a₁) :
    Api.callsOf "replace" a₁.log ≤ Api.callsOf "replace" a.log + k := by
  obtain ⟨added, hl, hc⟩ := h.log
  rw [hl, Api.callsOf_append]
  omega

end Api.Moves

section Footprints

variable {α β : Type} {k m : Nat}

/-- Every run of `x` moves the client as calls do, with at most `k` replace calls. -/
def ApiM.Footprint (k : Nat) (x : ApiM α) : Prop := ∀ a, Api.Moves k a (x.run.run a).2

/-- A run of `x` raises a conflict only after taking a reply of the script. -/
def ApiM.ConflictTakes (x : ApiM α) : Prop :=
  ∀ a e a', x.run.run a = (.error e, a') → e.isConflict = true → a'.script.length < a.script.length

namespace ApiM

theorem Footprint.mono {x : ApiM α} (hx : x.Footprint k) (hkm : k ≤ m) : x.Footprint m :=
  fun a => (hx a).mono hkm

theorem Footprint.moves {x : ApiM α} (hx : x.Footprint k) {a a' : Api} {o : Except Failure α}
    (h : x.run.run a = (o, a')) : Api.Moves k a a' := by
  simpa [h] using hx a

theorem Footprint.bind {x : ApiM α} {f : α → ApiM β} (hx : x.Footprint k)
    (hf : ∀ v, (f v).Footprint m) : (x >>= f).Footprint (k + m) := by
  intro a
  have hxa := hx a
  rw [run_run_bind]
  rcases hrun : x.run.run a with ⟨_ | v, a₁⟩
  · rw [hrun] at hxa
    exact hxa.mono (Nat.le_add_right k m)
  · rw [hrun] at hxa
    exact hxa.trans (hf v a₁)

theorem Footprint.pure (v : α) : (pure v : ApiM α).Footprint 0 := Api.Moves.refl

theorem Footprint.throw (e : Failure) : (throw e : ApiM α).Footprint 0 := Api.Moves.refl

theorem Footprint.check (r : Except Failure α) : (ApiM.check r).Footprint 0 := by
  cases r <;> exact Api.Moves.refl

theorem Footprint.getThe : (getThe Api : ApiM Api).Footprint 0 := Api.Moves.refl

/-- A step that neither calls nor replies adds nothing to the footprint of the rest. -/
theorem Footprint.bind_zero {x : ApiM α} {f : α → ApiM β} (hx : x.Footprint 0)
    (hf : ∀ v, (f v).Footprint m) : (x >>= f).Footprint m := by
  simpa using hx.bind hf

/-- The rest of a run after a step makes no replace call. -/
theorem Footprint.bind_rest {x : ApiM α} {f : α → ApiM β} (hx : x.Footprint k)
    (hf : ∀ v, (f v).Footprint 0) : (x >>= f).Footprint k := by
  simpa using hx.bind hf

theorem ConflictTakes.bind {x : ApiM α} {f : α → ApiM β} (hx : x.Footprint k)
    (hcx : x.ConflictTakes) (hcf : ∀ v, (f v).ConflictTakes) : (x >>= f).ConflictTakes := by
  intro a e a' hrun hc
  rw [run_run_bind] at hrun
  rcases hx₁ : x.run.run a with ⟨_ | v, a₁⟩ <;> rw [hx₁] at hrun
  · cases hrun
    exact hcx a e a' hx₁ hc
  · exact lt_of_lt_of_le (hcf v a₁ e a' hrun hc) (hx.moves hx₁).length_le

theorem ConflictTakes.pure (v : α) : (pure v : ApiM α).ConflictTakes := by
  intro a e a' h
  cases h

theorem ConflictTakes.getThe : (getThe Api : ApiM Api).ConflictTakes := by
  intro a e a' h
  cases h

theorem ConflictTakes.throw {e : Failure} (he : e.isConflict = false) :
    (throw e : ApiM α).ConflictTakes := by
  intro a e' a' h hc
  cases h
  rw [he] at hc
  cases hc

theorem ConflictTakes.check {r : Except Failure α}
    (hr : ∀ e, r = .error e → e.isConflict = false) : (ApiM.check r).ConflictTakes := by
  intro a e a' h hc
  cases r with
  | ok v => cases h
  | error f =>
    cases h
    rw [hr _ rfl] at hc
    cases hc

end ApiM

end Footprints

/-! ## Failures that are no conflict -/

section ConflictFree

variable {α β : Type}

/-- `r` never fails with a conflict. -/
def ConflictFree (r : Except Failure α) : Prop := ∀ e, r = .error e → e.isConflict = false

theorem ConflictFree.ok (v : α) : ConflictFree (.ok v : Except Failure α) := by
  intro e h
  cases h

theorem ConflictFree.bind {x : Except Failure α} {f : α → Except Failure β} (hx : ConflictFree x)
    (hf : ∀ v, ConflictFree (f v)) : ConflictFree (x >>= f) := by
  cases x with
  | ok v => exact hf v
  | error e =>
    intro e' h
    cases h
    exact hx e rfl

theorem conflictFree_field (v : Value) (k : String) : ConflictFree (v.field k) := by
  intro e h
  cases v <;> cases h <;> rfl

theorem conflictFree_fieldOr (v : Value) (k : String) (d : Value) :
    ConflictFree (v.fieldOr k d) := by
  intro e h
  cases v <;> cases h <;> rfl

theorem conflictFree_memberOf (v coll : Value) : ConflictFree (v.memberOf coll) := by
  intro e h
  cases coll with
  | obj fs =>
    simp only [Value.memberOf] at h
    split at h <;> cases h
    rfl
  | str s =>
    cases v <;> cases h <;> rfl
  | _ => cases h <;> rfl

theorem conflictFree_read (resource : Value) : ConflictFree (Identity.read resource) := by
  unfold Identity.read
  refine (conflictFree_fieldOr _ _ _).bind fun metadata => ?_
  refine (conflictFree_field _ _).bind fun apiVersion => ?_
  refine (conflictFree_field _ _).bind fun kind => ?_
  refine (conflictFree_field _ _).bind fun name => ?_
  refine (conflictFree_field _ _).bind fun ns => ?_
  intro e h
  dsimp only at h
  split at h <;> cases h
  rfl

end ConflictFree

/-! ## The client's calls -/

section Calls

variable {α β : Type} {m : Nat}

/-- The reply of a client whose script has run out. -/
def Api.emptyReply : Value := .obj [("result", .obj [])]

/-- The reply the next call gets. -/
def Api.nextAnswer (a : Api) : Reply := Reply.read (a.script.headD Api.emptyReply)

theorem read_emptyReply : Reply.read Api.emptyReply = .ok (some (.obj [])) := rfl

/-- The log entry of a call through a handle. -/
def Handle.entry (h : Handle) (verb : String) (kwargs : Fields) : Value :=
  .obj [("call", .str verb), ("namespaced", .bool h.namespaced), ("kwargs", .obj kwargs)]

theorem ApiM.run_check (r : Except Failure α) (a : Api) : (ApiM.check r).run.run a = (r, a) := by
  cases r <;> rfl

theorem ApiM.ConflictTakes.check_of_free {r : Except Failure α} (hr : ConflictFree r) :
    (ApiM.check r).ConflictTakes :=
  ApiM.ConflictTakes.check hr

theorem ApiM.run_check_ok {r : Except Failure α} {a a' : Api} {v : α}
    (h : (ApiM.check r).run.run a = (.ok v, a')) : r = .ok v ∧ a' = a := by
  rw [ApiM.run_check, Prod.mk.injEq] at h
  exact ⟨h.1, h.2.symm⟩

theorem run_note (entry : Value) (a : Api) :
    (Api.note entry).run.run a = (.ok (), { a with log := a.log ++ [entry] }) := rfl

/-- A call is logged and answered by the first reply of the script, which it takes; once the
script has run out, the reply is the empty object. -/
theorem run_call (h : Handle) (verb : String) (kwargs : Fields) (a : Api) :
    (h.call verb kwargs).run.run a =
      (.ok a.nextAnswer,
        { a with script := a.script.tail, log := a.log ++ [h.entry verb kwargs] }) := by
  rcases a with ⟨_ | ⟨r, rest⟩, log, unserved, ambiguous⟩ <;> rfl

theorem ApiM.Footprint.of_keeps {x : ApiM α} (hx : ∀ a, (x.run.run a).2 = a) : x.Footprint 0 := by
  intro a
  rw [hx a]
  exact Api.Moves.refl a

theorem ApiM.Footprint.call (h : Handle) (verb : String) (kwargs : Fields) :
    (h.call verb kwargs).Footprint (if verb = "replace" then 1 else 0) := by
  intro a
  rw [run_call]
  exact ⟨List.tail_suffix _, _, rfl, (Api.callsOf_entry _ _ _).le⟩

theorem ApiM.Footprint.call_replace (h : Handle) (kwargs : Fields) :
    (h.call "replace" kwargs).Footprint 1 := by
  simpa using ApiM.Footprint.call h "replace" kwargs

theorem ApiM.Footprint.call_other (h : Handle) {verb : String} (hv : verb ≠ "replace")
    (kwargs : Fields) : (h.call verb kwargs).Footprint 0 := by
  simpa [hv] using ApiM.Footprint.call h verb kwargs

theorem ApiM.Footprint.content (r : Reply) : r.content.Footprint 0 :=
  ApiM.Footprint.of_keeps fun a => by cases r <;> rfl

/-- A call that a computation's conflicts can only follow: whatever refusal it answers was
taken from the script. -/
theorem ApiM.ConflictTakes.call_bind {h : Handle} {verb : String} {kwargs : Fields}
    {f : Reply → ApiM β} (hf : ∀ r, (f r).Footprint m) (hok : ∀ c, (f (.ok c)).ConflictTakes) :
    (h.call verb kwargs >>= f).ConflictTakes := by
  intro a e a' hrun hc
  rw [run_run_bind, run_call] at hrun
  rcases hs : a.script with _ | ⟨r, rest⟩
  · simp only [Api.nextAnswer, hs, List.headD_nil, read_emptyReply] at hrun
    -- the empty object is no refusal, so a conflict would have to shorten the empty script
    have hlt := hok _ _ e a' hrun hc
    simp at hlt
  · simp only [Api.nextAnswer, hs, List.headD_cons, List.tail_cons] at hrun
    have hle := ((hf (Reply.read r)).moves hrun).length_le
    simp only [List.length_cons] at hle ⊢
    omega

/-- The client serves `kind` once: the lookup of its handle finds one. -/
def Api.Serves (a : Api) (kind : Value) : Prop :=
  kind.memberOf a.unserved = .ok false ∧ kind.memberOf a.ambiguous = .ok false

/-- The log entry of a handle lookup. -/
def handleEntry (kind apiVersion : Value) : Value :=
  .obj [("call", .str "resources.get"), ("kind", kind), ("api_version", apiVersion)]

theorem run_resourceHandle (kind apiVersion : Value) (a : Api) :
    ((Api.resourceHandle kind apiVersion).run.run a).2 =
        { a with log := a.log ++ [handleEntry kind apiVersion] } ∧
      ConflictFree ((Api.resourceHandle kind apiVersion).run.run a).1 := by
  simp only [Api.resourceHandle, run_run_bind, run_note, run_run_getThe, ApiM.run_check]
  rcases hu : kind.memberOf a.unserved with e | _ | _
  · exact ⟨rfl, fun e' h => by cases h; exact conflictFree_memberOf _ _ e hu⟩
  · rcases ha : kind.memberOf a.ambiguous with e | _ | _
    · exact ⟨rfl, fun e' h => by cases h; exact conflictFree_memberOf _ _ e ha⟩
    · exact ⟨rfl, ConflictFree.ok _⟩
    · exact ⟨rfl, ConflictFree.ok _⟩
  · exact ⟨rfl, ConflictFree.ok _⟩

theorem run_resourceHandle_of_serves {a : Api} {kind : Value} (hs : a.Serves kind)
    (apiVersion : Value) :
    (Api.resourceHandle kind apiVersion).run.run a =
      (.ok (some ⟨true⟩), { a with log := a.log ++ [handleEntry kind apiVersion] }) := by
  simp only [Api.resourceHandle, run_run_bind, run_note, run_run_getThe, ApiM.run_check]
  rw [hs.1, hs.2]
  rfl

theorem ApiM.Footprint.resourceHandle (kind apiVersion : Value) :
    (Api.resourceHandle kind apiVersion).Footprint 0 := by
  intro a
  rw [(run_resourceHandle kind apiVersion a).1]
  exact ⟨List.suffix_refl _, _, rfl, by simp [handleEntry, Api.callsOf_entry]⟩

theorem ApiM.ConflictTakes.resourceHandle (kind apiVersion : Value) :
    (Api.resourceHandle kind apiVersion).ConflictTakes := by
  intro a e a' h hc
  have hfree := (run_resourceHandle kind apiVersion a).2 e (by rw [h])
  rw [hfree] at hc
  cases hc

theorem ApiM.Footprint.requiredHandle (id : Identity) : (requiredHandle id).Footprint 0 := by
  unfold Cluster.requiredHandle
  refine (ApiM.Footprint.resourceHandle _ _).bind_zero fun h => ?_
  cases h
  · exact ApiM.Footprint.throw _
  · exact ApiM.Footprint.pure _

theorem ApiM.ConflictTakes.requiredHandle (id : Identity) : (requiredHandle id).ConflictTakes := by
  unfold Cluster.requiredHandle
  refine (ApiM.ConflictTakes.resourceHandle _ _).bind (ApiM.Footprint.resourceHandle _ _)
    fun h => ?_
  cases h
  · exact ApiM.ConflictTakes.throw rfl
  · exact ApiM.ConflictTakes.pure _

theorem run_requiredHandle_of_serves {a : Api} {id : Identity} (hs : a.Serves id.kind) :
    (requiredHandle id).run.run a =
      (.ok (Handle.within ⟨true⟩ id.ns),
        { a with log := a.log ++ [handleEntry id.kind id.apiVersion] }) := by
  simp only [requiredHandle, run_run_bind, run_resourceHandle_of_serves hs]
  rfl

end Calls

/-! ## One attempt, one refresh -/

section Attempts

open ApiM

theorem ApiM.Footprint.currentState (kind name ns apiVersion : Value) :
    (currentState kind name ns apiVersion).Footprint 0 := by
  unfold Cluster.currentState
  refine (Footprint.resourceHandle _ _).bind_zero fun h => ?_
  cases h with
  | none => exact Footprint.pure _
  | some h =>
    refine (Footprint.call_other _ (by decide) _).bind_zero fun reply => ?_
    split <;> exact Footprint.of_keeps fun a => rfl

theorem ApiM.Footprint.refreshVersion (resource : Value) :
    (refreshVersion resource).Footprint 0 := by
  unfold Cluster.refreshVersion
  refine (Footprint.check _).bind_zero fun id => ?_
  refine (Footprint.currentState _ _ _ _).bind_zero fun p => ?_
  obtain ⟨ok, content⟩ := p
  dsimp only
  split
  on_goal 1 => refine (Footprint.pure _).bind_zero fun c => ?_
  on_goal 2 => refine (Footprint.throw _).bind_zero fun c => ?_
  -- either way out of the lookup goes on to read the version: only reads and failures remain
  all_goals
    refine (Footprint.check _).bind_zero fun stored => (Footprint.check _).bind_zero fun v => ?_
    split
    · exact (Footprint.throw _).bind_zero fun _ => (Footprint.check _).bind_zero fun _ =>
        Footprint.pure _
    · exact (Footprint.check _).bind_zero fun _ => Footprint.pure _

theorem ApiM.Footprint.attempt (w : Write) (resource : Value) :
    (w.attempt resource).Footprint 1 := by
  unfold Write.attempt
  refine (Footprint.check _).bind_zero fun id => (Footprint.requiredHandle id).bind_zero fun h => ?_
  cases w with
  | create =>
    refine ((Footprint.call_other _ (by decide) _).bind_zero fun reply => ?_).mono (Nat.zero_le 1)
    split <;> exact Footprint.of_keeps fun a => rfl
  | update =>
    refine (Footprint.check _).bind_zero fun metadata => ?_
    refine (Footprint.check _).bind_zero fun previous => ?_
    refine (Footprint.call_replace _ _).bind_rest fun reply => ?_
    refine (Footprint.content reply).bind_zero fun c => ?_
    cases c with
    | none => exact Footprint.throw _
    | some result =>
      exact (Footprint.check _).bind_zero fun _ => (Footprint.check _).bind_zero fun _ =>
        Footprint.pure _
  | setStatus status =>
    refine ((Footprint.call_other _ (by decide) _).bind_zero fun reply => ?_).mono (Nat.zero_le 1)
    refine (Footprint.content reply).bind_zero fun c => ?_
    cases c with
    | none => exact Footprint.throw _
    | some current =>
      refine (Footprint.check _).bind_zero fun previous => ?_
      split
      · exact Footprint.pure _
      · exact (Footprint.call_other _ (by decide) _).bind_zero fun r =>
          (Footprint.content r).bind_zero fun _ => Footprint.pure _

theorem ApiM.ConflictTakes.content_ok (c : Option Value) :
    (Reply.content (.ok c)).ConflictTakes :=
  ConflictTakes.pure c

/-- A conflict met by an attempt is a reply of the script: an attempt fails before its call
only in reading the resource or finding the handle, never with a conflict. -/
theorem ApiM.ConflictTakes.attempt (w : Write) (resource : Value) :
    (w.attempt resource).ConflictTakes := by
  unfold Write.attempt
  refine ConflictTakes.bind (Footprint.check _) (.check (conflictFree_read _)) fun id => ?_
  refine ConflictTakes.bind (Footprint.requiredHandle id) (.requiredHandle id) fun h => ?_
  cases w with
  | create =>
    refine ConflictTakes.call_bind (m := 0) (fun reply => ?_) fun c => ConflictTakes.pure _
    split <;> exact Footprint.of_keeps fun a => rfl
  | update =>
    refine ConflictTakes.bind (Footprint.check _) (.check (conflictFree_fieldOr _ _ _))
      fun metadata => ?_
    refine ConflictTakes.bind (Footprint.check _) (.check (conflictFree_field _ _))
      fun previous => ?_
    refine ConflictTakes.call_bind (m := 0) (fun reply => ?_) fun c => ?_
    · refine (Footprint.content reply).bind_zero fun c => ?_
      cases c with
      | none => exact Footprint.throw _
      | some result =>
        exact (Footprint.check _).bind_zero fun _ => (Footprint.check _).bind_zero fun _ =>
          Footprint.pure _
    · refine ConflictTakes.bind (Footprint.content _) (ConflictTakes.content_ok c) fun c => ?_
      cases c with
      | none => exact ConflictTakes.throw rfl
      | some result =>
        exact ConflictTakes.bind (Footprint.check _) (.check (conflictFree_fieldOr _ _ _))
          fun _ => ConflictTakes.bind (Footprint.check _) (.check (conflictFree_field _ _))
            fun _ => ConflictTakes.pure _
  | setStatus status =>
    refine ConflictTakes.call_bind (m := 0) (fun reply => ?_) fun c => ?_
    · refine (Footprint.content reply).bind_zero fun c => ?_
      cases c with
      | none => exact Footprint.throw _
      | some current =>
        refine (Footprint.check _).bind_zero fun previous => ?_
        split
        · exact Footprint.pure _
        · exact (Footprint.call_other _ (by decide) _).bind_zero fun r =>
            (Footprint.content r).bind_zero fun _ => Footprint.pure _
    · refine ConflictTakes.bind (Footprint.content _) (ConflictTakes.content_ok c) fun c => ?_
      cases c with
      | none => exact ConflictTakes.throw rfl
      | some current =>
        refine ConflictTakes.bind (Footprint.check _) (.check (conflictFree_field _ _))
          fun previous => ?_
        split
        · exact ConflictTakes.pure _
        · exact ConflictTakes.call_bind (m := 0)
            (fun r => (Footprint.content r).bind_zero fun _ => Footprint.pure _)
            fun c => ConflictTakes.bind (Footprint.content _) (ConflictTakes.content_ok c)
              fun _ => ConflictTakes.pure _

end Attempts

/-! ## The retry discipline -/

section Retries

open ApiM

/-- The retry discipline of a write with `n` retries: an attempt, and when it meets a conflict
with a retry left, a refresh of the resource version and the discipline with one retry fewer. -/
def Write.retries (w : Write) : Nat → Value → ApiM Bool
  | 0, resource => w.attempt resource
  | n + 1, resource =>
    tryCatch (w.attempt resource) fun e =>
      if e.isConflict then do w.retries n (← refreshVersion resource) else throw e

theorem ApiM.Footprint.tryCatch {α : Type} {k m : Nat} {x : ApiM α} {h : Failure → ApiM α}
    (hx : x.Footprint k) (hh : ∀ e, (h e).Footprint m) : (tryCatch x h).Footprint (k + m) := by
  intro a
  rw [run_run_tryCatch]
  rcases hrun : x.run.run a with ⟨_ | v, a₁⟩
  · exact (hx.moves hrun).trans (hh _ a₁)
  · exact (hx.moves hrun).mono (Nat.le_add_right k m)

/-- Each of the `n + 1` attempts makes at most one replace call, and a refresh makes none. -/
theorem ApiM.Footprint.retries (w : Write) (n : Nat) (resource : Value) :
    (w.retries n resource).Footprint (n + 1) := by
  induction n generalizing resource with
  | zero => exact Footprint.attempt w resource
  | succ n ih =>
    rw [Write.retries, Nat.add_comm (n + 1) 1]
    refine (Footprint.attempt w resource).tryCatch fun e => ?_
    split
    · exact (Footprint.refreshVersion resource).bind_zero ih
    · exact (Footprint.throw e).mono (Nat.zero_le _)

theorem nextRetry_zero : nextRetry (.int ((0 : Nat) : Int)) = none := rfl

theorem nextRetry_succ (n : Nat) : nextRetry (.int ((n + 1 : Nat) : Int)) = some (.int n) := by
  simp [nextRetry]
  omega

/-- The fuel of `retrying` is never what stops it while the script is shorter than the fuel:
every retry follows a conflict, which took a reply of the script. -/
theorem retrying_eq_retries (w : Write) (n : Nat) :
    ∀ (fuel : Nat) (resource : Value) (a : Api), a.script.length < fuel →
      (retrying w fuel (.int n) resource).run.run a = (w.retries n resource).run.run a := by
  induction n with
  | zero =>
    intro fuel resource a _
    rw [retrying, run_run_tryCatch, nextRetry_zero, Write.retries]
    -- no retry is left: a failure is raised as it is
    rcases (w.attempt resource).run.run a with ⟨_ | b, a'⟩
    · cases fuel <;> rfl
    · rfl
  | succ n ih =>
    intro fuel resource a hfuel
    obtain ⟨f, rfl⟩ : ∃ f, fuel = f + 1 := ⟨fuel - 1, by omega⟩
    rw [retrying, run_run_tryCatch, Write.retries, run_run_tryCatch, nextRetry_succ]
    rcases hrun : (w.attempt resource).run.run a with ⟨_ | b, a₁⟩
    · rename_i e
      dsimp only
      by_cases hc : e.isConflict = true
      · -- the conflict took a reply and the refresh takes none, so the fuel stays ahead
        have hlt := ConflictTakes.attempt w resource a e a₁ hrun hc
        rw [if_pos (show (e.kindName == StatusError.conflict.name) = true from hc), if_pos hc,
          run_run_bind, run_run_bind]
        rcases hr : (refreshVersion resource).run.run a₁ with ⟨_ | r, a₂⟩
        · rfl
        · have hle := ((Footprint.refreshVersion resource).moves hr).length_le
          exact ih f r a₂ (by omega)
      · rw [if_neg (show ¬(e.kindName == StatusError.conflict.name) = true from hc), if_neg hc]
    · rfl

/-- What a guarded write answers for a run of its retries: done, with whether the write changed
anything, or not done. -/
def guardedAnswer : Except Failure Bool × Api → Except Failure (Bool × Bool) × Api
  | (.ok changed, a) => (.ok (true, changed), a)
  | (.error _, a) => (.ok (false, false), a)

/-- A guarded write with `n` retries is the retry discipline with `n` retries, its failures
turned into "not done". -/
theorem guarded_eq_retries (w : Write) (n : Nat) (resource : Value) (a : Api) :
    (guarded w (.int n) resource).run.run a = guardedAnswer ((w.retries n resource).run.run a) := by
  simp only [guarded, run_run_bind, run_run_getThe, run_run_tryCatch]
  rw [retrying_eq_retries w n _ resource a (Nat.lt_succ_self _)]
  rcases (w.retries n resource).run.run a with ⟨_ | b, a'⟩ <;> rfl

/-- An update with `n` retries makes at most `n + 1` replace calls. -/
theorem updateLive_replace_calls (n : Nat) (resource : Value) (a : Api) :
    Api.callsOf "replace" ((updateLive (.int n) resource).run.run a).2.log ≤
      Api.callsOf "replace" a.log + (n + 1) := by
  have hmoves := Footprint.retries .update n resource a
  rw [updateLive, guarded_eq_retries]
  rcases hrun : (Write.update.retries n resource).run.run a with ⟨_ | b, a'⟩ <;>
    rw [hrun] at hmoves <;> exact hmoves.calls_le

end Retries

/-! ## What a refresh reads and an update sends -/

section Versions

/-- The resource version of an object as the manager reads it: the `resourceVersion` member of
its metadata, null when missing. -/
def versionOf (v : Value) : Except Failure Value :=
  v.fieldOr "metadata" (.obj []) >>= fun metadata => metadata.field "resourceVersion"

theorem versionOf_set {resource metadata : Value} (hr : resource.isObj = true)
    (hm : metadata.isObj = true) :
    versionOf (resource.set "metadata" metadata) = .ok (metadata.getD "resourceVersion") := by
  have hset : (resource.set "metadata" metadata).isObj = true := by simpa using hr
  simp [versionOf, Value.fieldOr_eq_of_isObj hset, Value.field_eq_of_isObj hm, hr, bind,
    Except.bind]

/-- A resource whose identity can be read is an object with an object for metadata. -/
theorem metadata_of_read {resource : Value} {id : Identity}
    (h : Identity.read resource = .ok id) :
    resource.isObj = true ∧ ∃ metadata, resource.fieldOr "metadata" (.obj []) = .ok metadata ∧
      metadata.isObj = true := by
  unfold Identity.read at h
  cases resource with
  | obj fs =>
    refine ⟨rfl, ?_⟩
    rcases hm : (Value.obj fs).fieldOr "metadata" (.obj []) with e | metadata
    · rw [hm] at h
      cases h
    · refine ⟨metadata, rfl, ?_⟩
      rw [hm] at h
      -- only an object has the name that is read from the metadata
      cases metadata with
      | obj _ => rfl
      | _ => cases h
  | _ => cases h

/-- A refresh that succeeds has looked the resource up, found it, and read a resource version
that is not null; the resource it answers carries that version. -/
theorem refreshVersion_reads {resource r : Value} {a a' : Api}
    (h : (refreshVersion resource).run.run a = (.ok r, a')) :
    ∃ id c v, Identity.read resource = .ok id ∧
      (currentState id.kind id.name id.ns id.apiVersion).run.run a = (.ok (true, some c), a') ∧
      versionOf c = .ok v ∧ v.isNull = false ∧ versionOf r = .ok v := by
  unfold refreshVersion at h
  obtain ⟨id, a₀, hrun₁, h₁⟩ := run_run_bind_ok h
  obtain ⟨hid, rfl⟩ := ApiM.run_check_ok hrun₁
  obtain ⟨⟨ok, content⟩, a₁, hcs, h₂⟩ := run_run_bind_ok h₁
  dsimp only at h₂
  split at h₂
  case h_2 =>
    -- a lookup that failed or found nothing is a failure
    obtain ⟨_, _, hthrow, _⟩ := run_run_bind_ok h₂
    cases hthrow
  case h_1 c =>
    obtain ⟨_, _, hpure, h₃⟩ := run_run_bind_ok h₂
    cases hpure
    obtain ⟨stored, _, hrun₃, h₄⟩ := run_run_bind_ok h₃
    obtain ⟨hstored, rfl⟩ := ApiM.run_check_ok hrun₃
    obtain ⟨v, _, hrun₄, h₅⟩ := run_run_bind_ok h₄
    obtain ⟨hv, rfl⟩ := ApiM.run_check_ok hrun₄
    split at h₅
    · -- a null version is a failure
      obtain ⟨_, _, hthrow, _⟩ := run_run_bind_ok h₅
      cases hthrow
    · rename_i hnull
      obtain ⟨metadata, _, hrun₅, h₆⟩ := run_run_bind_ok h₅
      obtain ⟨hmetadata, rfl⟩ := ApiM.run_check_ok hrun₅
      cases h₆
      obtain ⟨hobj, metadata', hread, hmobj⟩ := metadata_of_read hid
      rw [hread] at hmetadata
      cases hmetadata
      refine ⟨id, c, v, hid, hcs, ?_, by simpa using hnull, ?_⟩
      · simp [versionOf, hstored, hv, bind, Except.bind]
      · rw [versionOf_set hobj (by simpa using hmobj)]
        simp [Value.getD_eq, hmobj]

/-- What an update answers to the reply of its replace call, for the version it sent: the
refusal's failure, a failure to read nothing, or whether the version it got back differs from
the one it sent. -/
def replaceAnswer (sent : Value) : Reply → Except Failure Bool
  | .error r => .error r.failure
  | .ok none => .error nothingToRead
  | .ok (some c) => versionOf c >>= fun v => pure !(v.equiv sent)

/-- An update attempt on a served kind makes one replace call, whose body carries the version
of the resource, and answers what its reply says. -/
theorem run_attempt_update {resource : Value} {id : Identity} {a : Api}
    (hid : Identity.read resource = .ok id) (hs : a.Serves id.kind) :
    ∃ body sent, versionOf body = .ok sent ∧ versionOf resource = .ok sent ∧
      (Write.update.attempt resource).run.run a =
        (replaceAnswer sent a.nextAnswer,
          { a with
            script := a.script.tail
            log := a.log ++ [handleEntry id.kind id.apiVersion,
              (Handle.within ⟨true⟩ id.ns).entry "replace" [("body", body), ("name", id.name),
                ("namespace", id.ns), ("field_manager", .str fieldManager)]] }) := by
  obtain ⟨hobj, metadata, hmd, hmobj⟩ := metadata_of_read hid
  -- dropping the managed fields keeps the version
  have herase : (metadata.erase "managedFields").getD "resourceVersion" =
      metadata.getD "resourceVersion" := by
    simp [Value.getD_eq]
  have hsent : versionOf resource = .ok (metadata.getD "resourceVersion") := by
    simp [versionOf, hmd, Value.field_eq_of_isObj hmobj, bind, Except.bind]
  refine ⟨resource.set "metadata" (metadata.erase "managedFields"), _,
    herase ▸ versionOf_set hobj (by simpa using hmobj), hsent, ?_⟩
  simp only [Write.attempt, run_run_bind, ApiM.run_check, hid, run_requiredHandle_of_serves hs,
    hmd, run_call, Value.field_eq_of_isObj (show (metadata.erase "managedFields").isObj = true by
      simpa using hmobj), herase, Api.nextAnswer, List.append_assoc, List.cons_append,
    List.nil_append]
  generalize Reply.read (a.script.headD Api.emptyReply) = reply
  rcases reply with r | _ | c
  · rfl
  · rfl
  · simp only [replaceAnswer, versionOf, Reply.content, run_run_pure, run_run_bind,
      ApiM.run_check]
    rcases c.fieldOr "metadata" (.obj []) with e | stored
    · rfl
    · dsimp only [bind, Except.bind]
      rcases stored.field "resourceVersion" with e | v <;> rfl

end Versions

/-! ## A status write that changes nothing, a create that finds the object -/

section Unwritten

/-- A status write on a served kind whose read finds the status already set answers that it
changed nothing, with no write: only the lookup and the read are logged. -/
theorem run_attempt_setStatus_unchanged {resource status current s : Value} {id : Identity}
    {a : Api} (hid : Identity.read resource = .ok id) (hs : a.Serves id.kind)
    (hread : a.nextAnswer = .ok (some current)) (hstatus : current.field "status" = .ok s)
    (hsame : s.equiv status = true) :
    ((Write.setStatus status).attempt resource).run.run a =
      (.ok false,
        { a with
          script := a.script.tail
          log := a.log ++ [handleEntry id.kind id.apiVersion,
            (Handle.within ⟨true⟩ id.ns).entry "get" [("name", id.name), ("namespace", id.ns)]] }) := by
  simp only [Write.attempt, run_run_bind, ApiM.run_check, hid, run_requiredHandle_of_serves hs,
    run_call, List.append_assoc, List.cons_append, List.nil_append]
  rw [show ({ a with log := a.log ++ [handleEntry id.kind id.apiVersion] } : Api).nextAnswer =
    a.nextAnswer from rfl, hread]
  simp only [Reply.content, run_run_pure, run_run_bind, ApiM.run_check, hstatus, hsame, if_true]

/-- A create on a served kind that meets a conflict answers that the object was there. -/
theorem run_attempt_create_conflict {resource code : Value} {id : Identity} {a : Api}
    (hid : Identity.read resource = .ok id) (hs : a.Serves id.kind)
    (hconflict : a.nextAnswer = .error (.status .conflict code)) :
    (Write.create.attempt resource).run.run a =
      (.ok false,
        { a with
          script := a.script.tail
          log := a.log ++ [handleEntry id.kind id.apiVersion,
            (Handle.within ⟨true⟩ id.ns).entry "create" [("body", resource), ("namespace", id.ns),
              ("field_manager", .str fieldManager)]] }) := by
  simp only [Write.attempt, run_run_bind, ApiM.run_check, hid, run_requiredHandle_of_serves hs,
    run_call, List.append_assoc, List.cons_append, List.nil_append]
  rw [show ({ a with log := a.log ++ [handleEntry id.kind id.apiVersion] } : Api).nextAnswer =
    a.nextAnswer from rfl, hconflict]
  rfl

/-- A write whose first attempt succeeds answers that attempt, whatever the retries. -/
theorem retries_of_attempt {w : Write} {resource : Value} {a a' : Api} {changed : Bool}
    (h : (w.attempt resource).run.run a = (.ok changed, a')) (n : Nat) :
    (w.retries n resource).run.run a = (.ok changed, a') := by
  cases n with
  | zero => exact h
  | succ n => rw [Write.retries, run_run_tryCatch, h]

end Unwritten

/-! ## The retry discipline of the writes -/

/-- A resource to update. -/
def sampleResource : Value :=
  .obj [("apiVersion", .str "v1"), ("kind", .str "Foo"),
    ("metadata", .obj [("name", .str "a"), ("namespace", .str "n"), ("resourceVersion", .str "1")])]

end Cluster

end OperandLifecycle
