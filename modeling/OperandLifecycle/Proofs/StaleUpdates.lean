import OperandLifecycle.Proofs.Lifecycle
/-!
# Stale updates in a strict store

A strict store accepts an update that names a resource version only when the object at its
address has that version (`Store.Accepts`). Each version is issued once, and an address that has
lost a version never gets it back, so an update naming the version a client read loses to every
call that, since the read, left nothing at the address or reported a change there
(`Store.Call.Supersedes`): it is turned down, and the store is left as it was.

Not every change of an object issues a version. An update whose content the store finds equal to
the object's (`1` and `true` compare equal) writes that content and keeps the version, and a
deletion marks an object and keeps its version. Neither supersedes the object, and an update
naming the version from before them still goes through.
-/

namespace OperandLifecycle.Cluster.Store

open Json

/-- A call answers that it changed what it wrote: an update or a status write answering
`(true, true)`. -/
def Call.ReportsChange : Call → Store → Prop
  | .update res, s => ((Store.update res).run.run s).1 = .ok (true, true)
  | .setStatus kind name ns status v, s =>
    ((Store.setStatus kind name ns status v).run.run s).1 = .ok (true, true)
  | _, _ => False

/-- A call supersedes what an address holds when it leaves nothing there, or reports a change
and changes what is there. -/
def Call.Supersedes (c : Call) (s : Store) (a : Address) : Prop :=
  (c.after s).objectAt a = none ∨ (c.ReportsChange s ∧ (c.after s).objectAt a ≠ s.objectAt a)

/-- No object at `a` has the `n`-th version. -/
def VersionGone (n : Nat) (a : Address) (s : Store) : Prop :=
  ∀ o, s.objectAt a = some o → rvOf o ≠ .str (toString n)

theorem truthy_version (n : Nat) : (Value.str (toString n)).truthy = true := by
  simp [Value.truthy, Nat.toString_eq_repr, Nat.repr_ne_empty]

/-! ### Runs of calls -/

section Runs

variable {s : Store}

/-- What every call keeps of a sound store, every run of calls keeps. -/
theorem Sound.runCalls_induction {P : Store → Prop}
    (hstep : ∀ s, s.Sound → P s → ∀ c : Call, P (c.after s)) (hs : s.Sound) (h : P s)
    (cs : List Call) : P (s.runCalls cs) := by
  induction cs generalizing s with
  | nil => exact h
  | cons c cs ih => exact ih (hs.after c) (hstep s hs h c)

theorem strict_runCalls (hs : s.Sound) (cs : List Call) : (s.runCalls cs).strict = s.strict :=
  hs.runCalls_induction (P := fun s' => s'.strict = s.strict)
    (fun _ hs' h c => (c.moves hs').strict.trans h) rfl cs

theorem issued_le_runCalls (hs : s.Sound) (cs : List Call) : s.issued ≤ (s.runCalls cs).issued :=
  hs.runCalls_induction (P := fun s' => s.issued ≤ s'.issued)
    (fun _ hs' h c => h.trans (c.moves hs').issued) le_rfl cs

end Runs

/-! ### What an answer tells of the store -/

section Answers

variable {s : Store}

/-- An update that answers it found the object was accepted, and its second answer is whether
the content changed. -/
theorem update_answered {res : Value} {changed : Bool}
    (h : ((Store.update res).run.run s).1 = .ok (true, changed)) :
    ∃ a cur, s.Accepts res a cur ∧ updateChanges cur res = changed ∧
      (Call.update res).after s = s.afterUpdate a cur res := by
  rcases ok_of_triple (update_outcome s res) h with ⟨hr, -⟩ | ⟨a, cur, ha, hr, hs'⟩
  · cases hr
  · exact ⟨a, cur, ha, (Prod.mk.inj hr).2.symm, hs'⟩

/-- A status write that reports a change wrote the status with the next version. -/
theorem setStatus_reported (hs : s.Keyed) {kind name ns status v : Value}
    (h : ((Store.setStatus kind name ns status v).run.run s).1 = .ok (true, true)) :
    WritesStatus s kind name ns status ((Call.setStatus kind name ns status v).after s) := by
  rcases ok_of_triple (setStatus_outcome s hs kind name ns status v) h with ⟨hr, -⟩ | ⟨-, hw⟩
  · cases hr
  · exact hw

end Answers

/-! ### A superseded version stays gone -/

section Gone

variable {s : Store} {n : Nat} {a : Address}

/-- An update that reports a change leaves, at an address whose object it changed, the object
with the version it issued. -/
theorem fresh_of_update_reported (hs : s.Sound) {res : Value}
    (hrep : ((Store.update res).run.run s).1 = .ok (true, true))
    (hne : ((Call.update res).after s).objectAt a ≠ s.objectAt a) (o : Value)
    (ho : ((Call.update res).after s).objectAt a = some o) :
    Fresh s.issued ((Call.update res).after s).issued o := by
  obtain ⟨b, cur, ⟨hr, -, hcur, -⟩, hch, hafter⟩ := update_answered hrep
  have hat := objectAt_settle_write hs.wf.keyed hcur (s.issued + 1)
    (updated cur res (.str (toString (s.issued + 1)))) a
  rw [hafter, afterUpdate_of_changes hch] at ho hne ⊢
  rw [hat] at ho hne
  rw [issued_settle]
  -- the update changed nothing at addresses other than its own
  by_cases hab : a.Equiv b
  · rw [if_pos hab] at ho
    split at ho
    · cases ho
    · cases ho
      exact ⟨s.issued + 1, Nat.lt_succ_self _, le_rfl, rvOf_updated hr _⟩
  · rw [if_neg hab] at hne
    exact absurd rfl hne

/-- A status write that reports a change leaves, at an address whose object it changed, the
object with the version it issued. -/
theorem fresh_of_setStatus_reported (hs : s.Sound) {kind name ns status v : Value}
    (hrep : ((Store.setStatus kind name ns status v).run.run s).1 = .ok (true, true))
    (hne : ((Call.setStatus kind name ns status v).after s).objectAt a ≠ s.objectAt a)
    (o : Value) (ho : ((Call.setStatus kind name ns status v).after s).objectAt a = some o) :
    Fresh s.issued ((Call.setStatus kind name ns status v).after s).issued o := by
  obtain ⟨b, cur, hb, -, -, -, hcur, hafter⟩ := setStatus_reported hs.wf.keyed hrep
  obtain ⟨b₀, hr₀⟩ := hs.wf.read_of_objectAt hcur
  obtain ⟨shelf, hslot, -⟩ := Option.bind_eq_some_iff.1 hcur
  have hk : ({ s with issued := s.issued + 1 } : Store).Keyed := hs.wf.keyed
  have hat := objectAt_write hk hb (statusWritten cur status (toString (s.issued + 1))) hslot a
  rw [hafter, hat] at ho hne
  rw [hafter]
  -- the status write changed nothing at addresses other than its own
  by_cases hab : a.Equiv b
  · rw [if_pos hab] at ho
    cases ho
    exact ⟨s.issued + 1, Nat.lt_succ_self _, le_rfl, rvOf_statusWritten hr₀ status _⟩
  · rw [if_neg hab] at hne
    exact absurd rfl hne

/-- What a superseding call leaves at the address has a version the call issued. -/
theorem fresh_of_supersedes (hs : s.Sound) {c : Call} (h : c.Supersedes s a) (o : Value)
    (ho : (c.after s).objectAt a = some o) : Fresh s.issued (c.after s).issued o := by
  rcases h with hnone | ⟨hrep, hne⟩
  · rw [hnone] at ho
    cases ho
  cases c with
  | create => exact hrep.elim
  | deleteAll => exact hrep.elim
  | update res => exact fresh_of_update_reported hs hrep hne o ho
  | setStatus kind name ns status v => exact fresh_of_setStatus_reported hs hrep hne o ho

/-- A superseding call leaves no version issued before it at the address. -/
theorem VersionGone.of_supersedes (hs : s.Sound) (hn : n ≤ s.issued) {c : Call}
    (h : c.Supersedes s a) : VersionGone n a (c.after s) :=
  fun o ho hv => not_fresh_of_le hn hv (fresh_of_supersedes hs h o ho)

/-- A version an address has lost stays lost: a call keeps the versions of the objects it finds
and issues only new ones. -/
theorem VersionGone.after (hs : s.Sound) (hn : n ≤ s.issued) (h : VersionGone n a s)
    (c : Call) : VersionGone n a (c.after s) := by
  intro o ho hv
  rcases (ho ▸ (c.moves hs).change a).version with ⟨o₀, h₀, hv₀⟩ | hf
  · exact h o₀ h₀ (hv₀.symm.trans hv)
  · exact not_fresh_of_le hn hv hf

theorem VersionGone.runCalls (hs : s.Sound) (hn : n ≤ s.issued) (h : VersionGone n a s)
    (cs : List Call) : VersionGone n a (s.runCalls cs) :=
  (hs.runCalls_induction (P := fun s' => n ≤ s'.issued ∧ VersionGone n a s')
    (fun _ hs' h' c => ⟨h'.1.trans (c.moves hs').issued, h'.2.after hs' h'.1 c⟩) ⟨hn, h⟩ cs).2

/-- A strict store turns down an update naming a version its address has lost, and stays as it
was. -/
theorem update_of_versionGone (hs : s.Sound) (hstrict : s.strict = true) {res : Value}
    (hr : Address.read res = .ok a) (ha : a.Hashable)
    (hv : (res.getD "metadata").getD "resourceVersion" = .str (toString n))
    (hgone : VersionGone n a s) : (Store.update res).run.run s = (.ok (false, false), s) := by
  have hout := run_of_triple (update_outcome s res)
  rcases hx : (Store.update res).run.run s with ⟨_ | r, s'⟩ <;> rw [hx] at hout
  · exact absurd ha (hout.2 a hr)
  rcases hout with ⟨rfl, rfl⟩ | ⟨b, cur, ⟨hrb, -, hcur, hcheck⟩, -, -⟩
  · rfl
  rw [hr] at hrb
  cases hrb
  -- the object found has a version other than the one named, which a strict store turns down
  obtain ⟨m, -, -, hm⟩ := hs.versioned a cur hcur
  have hnm : n ≠ m := fun h => hgone cur hcur (h ▸ hm)
  refine absurd ⟨hstrict, ?_, ?_⟩ hcheck
  · rw [hv]
    exact truthy_version n
  · rw [hv, hm]
    simp [Value.equiv, hnm]

end Gone

/-- In a strict store, an update that names a version goes through only when the object at its
address has that version. So once a client has read an object, and a later call has left nothing
at its address or reported a change to it, the client's update naming the version it read is
turned down and leaves the store as it was. -/
theorem strict_update_rejects_superseded_version :
    (∀ (s : Store) (res : Value) (changed : Bool), s.strict = true →
      ((Store.update res).run.run s).1 = .ok (true, changed) →
      ((res.getD "metadata").getD "resourceVersion").truthy = true →
      ∃ a cur, Address.read res = .ok a ∧ s.objectAt a = some cur ∧
        ((res.getD "metadata").getD "resourceVersion").equiv (rvOf cur) = true) ∧
    ∀ (pre cs : List Call) (a : Address) (res : Value),
      (((empty true).runCalls pre).objectAt a).map rvOf =
        some ((res.getD "metadata").getD "resourceVersion") →
      Address.read res = .ok a →
      (∃ before c after, cs = before ++ c :: after ∧
        c.Supersedes (((empty true).runCalls pre).runCalls before) a) →
      (Store.update res).run.run (((empty true).runCalls pre).runCalls cs) =
        (.ok (false, false), ((empty true).runCalls pre).runCalls cs) := by
  refine ⟨fun s res changed hstrict h htruthy => ?_,
    fun pre cs a res hread hr ⟨before, c, after, hcs, hsup⟩ => ?_⟩
  · obtain ⟨a, cur, ⟨hr, -, hcur, hcheck⟩, -⟩ := update_answered h
    exact ⟨a, cur, hr, hcur, by simpa [hstrict, htruthy] using hcheck⟩
  -- the version read stays gone from the address from the superseding call to the end
  have hs₀ := sound_runCalls (sound_empty true) pre
  obtain ⟨o, ho, hvo⟩ := Option.map_eq_some_iff.1 hread
  obtain ⟨n, -, hn, hvn⟩ := hs₀.versioned a o ho
  have hb := sound_runCalls hs₀ before
  have hnb : n ≤ (((empty true).runCalls pre).runCalls before).issued :=
    hn.trans (issued_le_runCalls hs₀ before)
  have hgone := (VersionGone.of_supersedes hb hnb hsup).runCalls (hb.after c)
    (hnb.trans (c.moves hb).issued) after
  have hend : ((empty true).runCalls pre).runCalls cs =
      (c.after (((empty true).runCalls pre).runCalls before)).runCalls after := by
    rw [hcs, runCalls_append, runCalls_cons]
  have hstrict : (((empty true).runCalls pre).runCalls cs).strict = true := by
    rw [← runCalls_append]
    exact strict_runCalls (sound_empty true) _
  rw [hend] at hstrict ⊢
  exact update_of_versionGone (sound_runCalls (hb.after c) after) hstrict hr
    (hashable_of_objectAt hs₀.wf.keyed ho).1 (hvo.symm.trans hvn) hgone

/-- A client reads an object, which is then deleted and created again at its address; the
client's update naming the version it read is turned down. -/
theorem stale_update_after_recreation_rejected :
    let res₀ : Value := .obj [("apiVersion", .str "v1"), ("kind", .str "K"),
      ("metadata", .obj [("name", .str "x"), ("namespace", .str "n")]),
      ("spec", .obj [("replicas", .int 1)])]
    let stale : Value := .obj [("apiVersion", .str "v1"), ("kind", .str "K"),
      ("metadata", .obj [("name", .str "x"), ("namespace", .str "n"),
        ("resourceVersion", .str "1")]),
      ("spec", .obj [("replicas", .int 2)])]
    let a : Address := ⟨.str "n", .str "K", .str "v1", .str "x"⟩
    let pre := [Call.create res₀ "u" (Stamp.ofSeconds 0)]
    let cs := [Call.deleteAll (.str "K") (.str "n") .null .null .null (Stamp.ofSeconds 1),
      Call.create res₀ "w" (Stamp.ofSeconds 2)]
    (((empty true).runCalls pre).objectAt a).map rvOf =
        some ((stale.getD "metadata").getD "resourceVersion") ∧
      Address.read stale = .ok a ∧
      (∃ before c after, cs = before ++ c :: after ∧
        c.Supersedes (((empty true).runCalls pre).runCalls before) a) ∧
      (Store.update stale).run.run (((empty true).runCalls pre).runCalls cs) =
        (.ok (false, false), ((empty true).runCalls pre).runCalls cs) :=
  ⟨rfl, rfl, ⟨[], _, _, rfl, .inl rfl⟩,
    strict_update_rejects_superseded_version.2 _ _ _ _ rfl rfl ⟨[], _, _, rfl, .inl rfl⟩⟩

/-- An update whose content the store finds equal to the object's (`true` for `1`) answers that
it changed nothing, yet writes its content and keeps the version; an update naming the version
from before it then goes through. -/
theorem unreported_change_admits_stale_update :
    let res₀ : Value := .obj [("apiVersion", .str "v1"), ("kind", .str "K"),
      ("metadata", .obj [("name", .str "x"), ("namespace", .str "n")]),
      ("spec", .obj [("replicas", .int 1)])]
    let edit (replicas : Value) : Value := .obj [("apiVersion", .str "v1"), ("kind", .str "K"),
      ("metadata", .obj [("name", .str "x"), ("namespace", .str "n"),
        ("resourceVersion", .str "1")]),
      ("spec", .obj [("replicas", replicas)])]
    let a : Address := ⟨.str "n", .str "K", .str "v1", .str "x"⟩
    let s₀ := (empty true).runCalls [.create res₀ "u" (Stamp.ofSeconds 0)]
    let s₁ := (Call.update (edit (.bool true))).after s₀
    (s₀.objectAt a).map rvOf = some (.str "1") ∧
      ((Store.update (edit (.bool true))).run.run s₀).1 = .ok (true, false) ∧
      s₁.objectAt a ≠ s₀.objectAt a ∧
      ((Store.update (edit (.int 2))).run.run s₁).1 = .ok (true, true) := by
  refine ⟨rfl, rfl, fun h => ?_, rfl⟩
  -- the first update wrote `true` where the object had `1`
  have h₁ := congrArg (Option.map fun o => ((o.getD "spec").getD "replicas").typeName) h
  exact absurd h₁ (by decide)

end OperandLifecycle.Cluster.Store
