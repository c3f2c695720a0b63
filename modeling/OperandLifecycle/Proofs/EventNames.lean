import OperandLifecycle.Proofs.EventFolding
/-!
# Event names and the object name limit

An event's name is the owner's name cut to leave room for a suffix, then the suffix: a dot, the
lower-cased reason, a dot and the first ten hexadecimal digits of the SHA-1 digest of the
event's content (`eventName`). Object names may hold 253 characters, and the cut is made at 253
less the suffix's length.

While the suffix fits, that cut is the longest prefix of the owner's name that keeps the whole
name within 253 characters (`LongestFitting`). A suffix longer than 253 characters, that is a
lower-cased reason of more than 241, leaves a negative room, and a negative cut counts from the
end of the owner's name: as many characters as the suffix overflows are dropped from it and the
rest is kept, so the name is longer than 253 characters.
-/

namespace OperandLifecycle

namespace Digest

theorem wordHex_length (x : UInt32) : (wordHex x).length = 8 := by
  have hlt : x.toNat < 16 ^ 8 := by simpa using x.toNat_lt
  have hds : (Nat.toDigits 16 x.toNat).length ≤ 8 :=
    (Nat.length_toDigits_le_iff (by decide) (by decide)).2 hlt
  simp only [wordHex, String.length_ofList, List.length_append, List.length_replicate]
  omega

/-- A SHA-1 digest is written with forty hexadecimal digits. -/
theorem sha1Hex_length (msg : List UInt8) : (sha1Hex msg).length = 40 := by
  simp [sha1Hex, wordHex_length]

end Digest

namespace Event

open Json Cluster

/-- `p` is the longest prefix of `s` that leaves room for `room` more characters within
`limit` characters. -/
structure LongestFitting (s p : List Char) (room limit : Nat) : Prop where
  isPrefix : p <+: s
  fits : p.length + room ≤ limit
  longest : ∀ q, q <+: s → q.length + room ≤ limit → q.length ≤ p.length

/-- Cutting a text at its room is keeping its longest prefix that fits. -/
theorem longestFitting_take (s : List Char) {room limit : Nat} (h : room ≤ limit) :
    LongestFitting s (s.take (limit - room)) room limit := by
  refine ⟨List.take_prefix _ _, ?_, ?_⟩
  · simp only [List.length_take]
    omega
  · intro q hq hfit
    have hle : q.length ≤ s.length := hq.length_le
    simp only [List.length_take]
    omega

theorem headUpTo_toList_of_nonneg (s : String) {k : Int} (hk : 0 ≤ k) :
    (headUpTo s k).toList = s.toList.take k.toNat := by
  simp [headUpTo, hk, String.Slice.toString_eq]

/-- A negative cut drops as many characters from the end as it is below zero. -/
theorem headUpTo_toList_of_neg (s : String) {k : Int} (hk : k < 0) :
    (headUpTo s k).toList = s.toList.take (s.length - k.natAbs) := by
  have : ¬ (k ≥ 0) := by omega
  simp [headUpTo, this, String.Slice.toString_eq]

/-- The digest part of an event's name has ten digits. -/
theorem digest_length (bytes : List UInt8) :
    ((Digest.sha1Hex bytes).take digestLength).toString.length = digestLength := by
  rw [← String.length_toList, String.Slice.toString_eq, String.toList_copy_take,
    List.length_take, String.length_toList, Digest.sha1Hex_length]
  rfl

/-- The name of an event about an owner named `s`, with the reason `r` and the message `m`.
Made by `makeEvent` and posted by `record`, it is a prefix `p` of the owner's name followed by
the suffix of the lower-cased reason and ten digest digits. While the suffix fits 253
characters, `p` is the longest prefix that keeps the name within them; a longer suffix drops
its overflow from the end of the owner's name, and the name is longer than 253 characters. -/
theorem eventName_fits_unless_suffix_overflows {owner md : Value} {s : String}
    (hmd : owner.fieldOr "metadata" (.obj []) = .ok md) (hobj : md.isObj = true)
    (hname : md.getD "name" = .str s) (type : EventType) (r m : String) (now : Stamp) :
    let digest := ((Digest.sha1Hex (Text.utf8Bytes
      ("/".intercalate [(md.getD "uid").display, type.word, r, m]))).take digestLength).toString
    let suffix := "." ++ Text.toLower r ++ "." ++ digest
    ∃ p ev, eventName owner type (.str r) (.str m) = .ok (p ++ suffix) ∧
      makeEvent owner type (.str r) (.str m) now = .ok ev ∧
      (ev.getD "metadata").getD "name" = .str (p ++ suffix) ∧
      (∀ w : World, w.now = now → (w.settings.get "post_events").truthy = true →
        (record owner type (.str r) (.str m)).run.run w = (tryCatch (do
          let (ok, created) ← create ev
          if ok && !created then bump ev else pure (ok && created)) (fun _ => pure false)).run.run w) ∧
      suffix.length = (Text.toLower r).length + 12 ∧
      (suffix.length ≤ maxNameLength →
        (p ++ suffix).length ≤ maxNameLength ∧
          LongestFitting s.toList p.toList suffix.length maxNameLength) ∧
      (maxNameLength < suffix.length →
        p.toList = s.toList.take (s.length - (suffix.length - maxNameLength)) ∧
          maxNameLength < (p ++ suffix).length) := by
  intro digest suffix
  have hsuffix : suffix.length = (Text.toLower r).length + 12 := by
    have hdot : ".".length = 1 := rfl
    have hdigest := digest_length (Text.utf8Bytes
      ("/".intercalate [(md.getD "uid").display, type.word, r, m]))
    simp only [suffix, digest, String.length_append, hdot, hdigest]
    unfold digestLength
    omega
  obtain ⟨n, ev, hn, hev, hmade⟩ := makeEvent_made hmd hobj type r m now
  -- the name is the owner's name cut at the room the suffix leaves, then the suffix
  have hcut : n = headUpTo s ((maxNameLength : Int) - suffix.length) ++ suffix := by
    have hn' := eventName_eq hmd hobj type r m
    rw [hn, hname] at hn'
    simp only [Value.display] at hn'
    exact Except.ok.inj hn'
  subst hcut
  refine ⟨_, ev, hn, hev, hmade.name, fun w hnow hpost => ?_, hsuffix, fun hfit => ?_,
    fun hover => ?_⟩
  · subst hnow
    exact run_record hmd hobj hpost hev
  · have hp := headUpTo_toList_of_nonneg s (k := (maxNameLength : Int) - suffix.length)
      (by omega)
    have hroom : ((maxNameLength : Int) - suffix.length).toNat = maxNameLength - suffix.length := by
      omega
    rw [hroom] at hp
    have hlong := longestFitting_take s.toList hfit
    rw [← hp] at hlong
    refine ⟨?_, hlong⟩
    have hfits := hlong.fits
    rw [String.length_toList] at hfits
    rw [String.length_append]
    exact hfits
  · have hp := headUpTo_toList_of_neg s (k := (maxNameLength : Int) - suffix.length) (by omega)
    have hdrop : ((maxNameLength : Int) - suffix.length).natAbs = suffix.length - maxNameLength := by
      omega
    rw [hdrop] at hp
    refine ⟨hp, ?_⟩
    rw [String.length_append]
    omega

/-- The name of a warning about an owner `etcd-cluster`. -/
theorem eventName_about_named_owner :
    let md : Value := .obj [("name", .str "etcd-cluster"), ("uid", .str "u1")]
    let owner : Value := .obj [("metadata", md)]
    owner.fieldOr "metadata" (.obj []) = .ok md ∧ md.isObj = true ∧
    md.getD "name" = .str "etcd-cluster" ∧
    let digest := ((Digest.sha1Hex (Text.utf8Bytes ("/".intercalate
      [(md.getD "uid").display, EventType.warning.word, "NotFound", "m"]))).take digestLength).toString
    let suffix := "." ++ Text.toLower "NotFound" ++ "." ++ digest
    ∃ p ev, eventName owner .warning (.str "NotFound") (.str "m") = .ok (p ++ suffix) ∧
      makeEvent owner .warning (.str "NotFound") (.str "m") (Stamp.ofSeconds 0) = .ok ev ∧
      (ev.getD "metadata").getD "name" = .str (p ++ suffix) ∧
      (∀ w : World, w.now = Stamp.ofSeconds 0 → (w.settings.get "post_events").truthy = true →
        (record owner .warning (.str "NotFound") (.str "m")).run.run w = (tryCatch (do
          let (ok, created) ← create ev
          if ok && !created then bump ev else pure (ok && created)) (fun _ => pure false)).run.run w) ∧
      suffix.length = (Text.toLower "NotFound").length + 12 ∧
      (suffix.length ≤ maxNameLength →
        (p ++ suffix).length ≤ maxNameLength ∧
          LongestFitting "etcd-cluster".toList p.toList suffix.length maxNameLength) ∧
      (maxNameLength < suffix.length →
        p.toList = "etcd-cluster".toList.take ("etcd-cluster".length - (suffix.length - maxNameLength)) ∧
          maxNameLength < (p ++ suffix).length) := by
  intro md owner
  have hmd : owner.fieldOr "metadata" (.obj []) = .ok md := rfl
  have hname : md.getD "name" = .str "etcd-cluster" := rfl
  exact ⟨hmd, rfl, hname,
    eventName_fits_unless_suffix_overflows hmd rfl hname .warning "NotFound" "m" (Stamp.ofSeconds 0)⟩

end Event

end OperandLifecycle
