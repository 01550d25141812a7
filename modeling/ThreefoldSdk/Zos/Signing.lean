import ThreefoldSdk.Zos.Workload

/-! The signatures of a deployment that is signed and changed any number of times
(`Deployment.sign`). -/

namespace ThreefoldSdk.Zos

namespace Deployment

def signatures (d : Deployment) : List Signature := d.signatureRequirement.signatures

/-- The twins of the signatures, in their order. -/
def signers (d : Deployment) : List Nat := d.signatures.map (·.twinId)

def withSignatures (d : Deployment) (signatures : List Signature) : Deployment :=
  { d with signatureRequirement := { d.signatureRequirement with signatures := signatures } }

/-- What `sign` sets and pushes; an empty hash stands for that of the deployment. -/
def signatureFor (md5 signature : String → String) (twinId : Nat) (keypairType : KeypairType)
    (hash : String) (d : Deployment) : Signature :=
  ⟨twinId, signature (if hash = "" then d.challengeHash md5 else hash), keypairType⟩

/-- `sign`, with its last parameter. -/
def signHash (md5 signature : String → String) (twinId : Nat) (keypairType : KeypairType)
    (hash : String) (d : Deployment) : Deployment :=
  let s := d.signatureFor md5 signature twinId keypairType hash
  let signed := d.signatures.map fun s' => if s'.twinId = twinId then s else s'
  d.withSignatures (signed ++ [s])

end Deployment

/-- What happens to a deployment: a twin signs it, or all but its signatures is changed. -/
inductive Call where
  | sign (signature : String → String) (twinId : Nat) (keypairType : KeypairType) (hash : String)
  | change (d : Deployment)

def Call.run (md5 : String → String) (d : Deployment) : Call → Deployment
  | sign signature twinId keypairType hash => d.signHash md5 signature twinId keypairType hash
  | change d' => d'.withSignatures d.signatures

def Call.signer : Call → Option Nat
  | sign _ twinId _ _ => some twinId
  | change _ => none

def runCalls (md5 : String → String) (calls : List Call) (d : Deployment) : Deployment :=
  calls.foldl (Call.run md5) d

def signersOf (calls : List Call) : List Nat := calls.filterMap Call.signer

/-- Each twin that signed has one entry, and one that signed in the calls has that of its latest. -/
structure SignedOnce (md5 : String → String) (calls : List Call) (d : Deployment) : Prop where
  once : ∀ twinId, twinId ∈ d.signers ∨ twinId ∈ signersOf calls →
    (runCalls md5 calls d).signers.count twinId = 1
  latest : ∀ before signature twinId keypairType hash after,
    calls = before ++ Call.sign signature twinId keypairType hash :: after →
    twinId ∉ signersOf after →
    ∀ s ∈ (runCalls md5 calls d).signatures, s.twinId = twinId →
      s = (runCalls md5 before d).signatureFor md5 signature twinId keypairType hash

section
variable {md5 signature : String → String} {twinId : Nat} {keypairType : KeypairType}
  {hash : String} {d : Deployment} {call : Call} {calls : List Call}

/-- A twin that signs again keeps its entries and gets one more. -/
theorem signers_signHash :
    (d.signHash md5 signature twinId keypairType hash).signers = d.signers ++ [twinId] := by
  change (d.signatures.map _ ++ [_]).map _ = _
  rw [List.map_append, List.map_map]
  refine congrArg (· ++ [twinId]) (List.map_congr_left fun s _ => ?_)
  rw [Function.comp_apply]
  split
  · rename_i hsame
    exact hsame.symm
  · rfl

theorem signers_run : (call.run md5 d).signers = d.signers ++ call.signer.toList := by
  cases call with
  | sign signature twinId keypairType hash => exact signers_signHash
  | change d' => exact (List.append_nil d.signers).symm

theorem signers_runCalls : (runCalls md5 calls d).signers = d.signers ++ signersOf calls := by
  induction calls generalizing d with
  | nil => exact (List.append_nil d.signers).symm
  | cons call calls ih =>
    have hrest : (runCalls md5 (call :: calls) d).signers =
        (call.run md5 d).signers ++ signersOf calls := ih
    have hcons : signersOf (call :: calls) = call.signer.toList ++ signersOf calls := by
      cases call <;> rfl
    rw [hrest, signers_run, hcons, List.append_assoc]

/-- Every entry of the twin is the new one. -/
theorem eq_of_signHash {s : Signature}
    (hs : s ∈ (d.signHash md5 signature twinId keypairType hash).signatures)
    (htwin : s.twinId = twinId) : s = d.signatureFor md5 signature twinId keypairType hash := by
  rcases List.mem_append.mp hs with hs | hs
  · obtain ⟨s', -, rfl⟩ := List.mem_map.mp hs
    split at htwin
    · rename_i hsame
      rw [if_pos hsame]
    · rename_i hother
      exact absurd htwin hother
  · exact List.mem_singleton.mp hs

/-- An entry of a twin stays while others sign. -/
theorem mem_of_run {s : Signature} (hs : s ∈ (call.run md5 d).signatures)
    (hother : call.signer ≠ some s.twinId) : s ∈ d.signatures := by
  cases call with
  | change d' => exact hs
  | sign signature twinId keypairType hash =>
    have hne : s.twinId ≠ twinId := fun heq => hother (congrArg some heq.symm)
    rcases List.mem_append.mp hs with hs | hs
    · obtain ⟨s', hs', rfl⟩ := List.mem_map.mp hs
      split at hne
      · exact absurd rfl hne
      · rename_i hkept
        rw [if_neg hkept]
        exact hs'
    · rw [List.mem_singleton.mp hs] at hne
      exact absurd rfl hne

theorem mem_of_runCalls {s : Signature} (hs : s ∈ (runCalls md5 calls d).signatures)
    (hothers : s.twinId ∉ signersOf calls) : s ∈ d.signatures := by
  induction calls generalizing d with
  | nil => exact hs
  | cons call calls ih =>
    have hsigner : call.signer ≠ some s.twinId := by
      intro heq
      exact hothers (List.mem_filterMap.mpr ⟨call, List.mem_cons_self, heq⟩)
    have hrest : s.twinId ∉ signersOf calls := by
      intro hmem
      obtain ⟨other, hother, heq⟩ := List.mem_filterMap.mp hmem
      exact hothers (List.mem_filterMap.mpr ⟨other, List.mem_cons_of_mem _ hother, heq⟩)
    exact mem_of_run (ih hs hrest) hsigner

theorem latest_of_runCalls {before after : List Call} (hafter : twinId ∉ signersOf after)
    {s : Signature} (hs : s ∈ (runCalls md5
      (before ++ Call.sign signature twinId keypairType hash :: after) d).signatures)
    (htwin : s.twinId = twinId) :
    s = (runCalls md5 before d).signatureFor md5 signature twinId keypairType hash := by
  rw [runCalls, List.foldl_append, List.foldl_cons] at hs
  have hmid := @mem_of_runCalls _ _ after _ hs (by rw [htwin]; exact hafter)
  exact eq_of_signHash hmid htwin

/-- A deployment fetched with one signature per twin keeps one per twin, the latest, exactly when no
twin signs that has signed before. -/
theorem signedOnce_iff (hd : d.signers.Nodup) :
    SignedOnce md5 calls d ↔
      (signersOf calls).Nodup ∧ ∀ twinId ∈ signersOf calls, twinId ∉ d.signers := by
  have hnodup : (d.signers ++ signersOf calls).Nodup ↔
      (signersOf calls).Nodup ∧ ∀ twinId ∈ signersOf calls, twinId ∉ d.signers := by
    rw [List.nodup_append']
    exact ⟨fun h => ⟨h.2.1, fun t ht hin => h.2.2 hin ht⟩,
      fun h => ⟨hd, h.1, fun t hin ht => h.2 t ht hin⟩⟩
  rw [← hnodup]
  constructor
  · intro h
    refine List.nodup_iff_count_eq_one.mpr fun twinId hmem => ?_
    rw [← @signers_runCalls md5]
    exact h.once twinId (List.mem_append.mp hmem)
  · intro h
    refine ⟨fun twinId hmem => ?_, ?_⟩
    · rw [signers_runCalls]
      exact List.count_eq_one_of_mem h (List.mem_append.mpr hmem)
    · rintro before signature twinId keypairType hash after rfl hafter s hs htwin
      exact latest_of_runCalls hafter hs htwin

end

/-- A deployment as its node returns it, signed by its twin. -/
def fetchedDeployment : Deployment where
  version := 0
  twinId := 7
  contractId := some 1
  expiration := 0
  metadata := ""
  description := ""
  workloads := []
  signatureRequirement := ⟨[⟨7, false, 1⟩], 1, [⟨7, "5e", .sr25519⟩]⟩

/-- Another twin signs, and the deployment is changed. -/
def otherTwinSigns : List Call :=
  [.sign id 8 .sr25519 "", .change { fetchedDeployment with version := 1 }]

theorem otherTwinSigns_once : SignedOnce id otherTwinSigns fetchedDeployment :=
  (signedOnce_iff (by decide)).mpr (by decide)

/-- An update changes the deployment and signs it for the twin again. -/
def ownTwinSigns : List Call :=
  [.change { fetchedDeployment with version := 1 }, .sign id 7 .sr25519 ""]

theorem ownTwinSigns_twice : ¬∀ (md5 : String → String) (calls : List Call) (d : Deployment),
    d.signers.Nodup → SignedOnce md5 calls d := by
  intro h
  have honce := (h id ownTwinSigns fetchedDeployment (by decide)).once 7 (by decide)
  rw [signers_runCalls] at honce
  exact absurd honce (by decide)

end ThreefoldSdk.Zos
