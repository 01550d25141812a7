import ThreefoldSdk.Primitives.SubnetFrame

/-! The subnets of a network over any calls that add nodes and access points to it, or reserve
subnets: when they stay distinct networks of length 24 inside its range. -/

namespace ThreefoldSdk.Primitives
open Zos Ipv4 FirstFree Frame

def IsSubnet (range a : Addr) : Prop := a.len = 24 ∧ range.contains a = true

/-- The subnets held or reserved denote networks of length 24 in the range, different ones by
different texts; none is held twice, and none is reserved twice. -/
structure SubnetsSound (range : Addr) (n : Network) : Prop where
  inside : ∀ t ∈ n.taken, ∃ a, parse t = some a ∧ IsSubnet range a
  distinct : ∀ t ∈ n.taken, ∀ u ∈ n.taken, parse t = parse u → t = u
  held_nodup : n.held.Nodup
  reserved_nodup : n.reservedSubnets.Nodup

/-- A subnet from the third one on is left, and all before it are taken by their plain texts; or
none is left, and the range is the last one there is. -/
def FreeLeft (range : Addr) (n : Network) : Prop :=
  (∃ a, IsSubnet range a ∧ range.base + 512 ≤ a.base ∧ some a ∉ n.taken.map parse ∧
    ∀ b, IsSubnet range b → range.base + 512 ≤ b.base → b.base < a.base → b.toText ∈ n.taken) ∨
  (range.nextSibling = none ∧
    ∀ b, IsSubnet range b → range.base + 512 ≤ b.base → b.toText ∈ n.taken)

/-- The text denotes a subnet of the range that none that is taken denotes. -/
def NewSubnet (range : Addr) (n : Network) (t : String) : Prop :=
  ∃ a, parse t = some a ∧ IsSubnet range a ∧ some a ∉ n.taken.map parse

/-- The text denotes a subnet of the range that is not held, and not reserved under another text. -/
def Joins (range : Addr) (n : Network) (t : String) : Prop :=
  t ∉ n.held ∧ ∃ a, parse t = some a ∧ IsSubnet range a ∧ ∀ u ∈ n.taken, parse u = some a → u = t

section
variable {range : Addr} {n n' : Network} {t : String}

theorem isSubnet_iff (hrange : range.len = 16) {a : Addr} : IsSubnet range a ↔
    a.len = 24 ∧ range.base ≤ a.base ∧ a.base < range.base + 65536 := by
  have hsize : range.size = 65536 := by
    rw [Addr.size, hrange]
    rfl
  unfold IsSubnet Addr.contains
  rw [hsize, decide_eq_true_eq, hrange]
  omega

theorem firstSubnet_ok (hrange : range.len = 16) :
    ∃ first, firstSubnet range = .ok first ∧ first.len = 24 ∧ first.base = range.base + 512 := by
  have haligned := range.aligned
  have hlt := range.base_lt
  rw [hrange] at haligned
  obtain ⟨k, hk⟩ := haligned
  have hmask : (range.mask 24).len = 24 ∧ (range.mask 24).base = range.base := by
    refine ⟨rfl, ?_⟩
    change range.base / 2 ^ 8 * 2 ^ 8 = range.base
    omega
  let first : Addr := ⟨range.base + 512, 24, by decide, ⟨k * 256 + 2, by omega⟩, by omega⟩
  have hfollow : follow Addr.nextSibling 2 (range.mask 24) = some first := by
    refine follow_eq_some_iff.mpr ⟨hmask.1.symm, ?_⟩
    rw [Addr.size_of_subnet hmask.1, hmask.2]
  refine ⟨first, ?_, rfl, rfl⟩
  simp only [follow, Option.bind_fun_some] at hfollow
  rw [firstSubnet, hfollow]
  rfl

theorem ne_empty_of_parse {a : Addr} (h : parse t = some a) : t ≠ "" := by
  rintro rfl
  have hnone : parse "" = none := by decide
  rw [hnone] at h
  cases h

theorem mem_reservedSubnetsOf_iff (h : SubnetsSound range n) :
    t ∈ n.reservedSubnetsOf ↔ t ∈ n.taken := by
  refine ⟨mem_reservedSubnetsOf, fun ht => reservedSubnetsOf_of_mem ht ?_⟩
  obtain ⟨a, ha, -⟩ := h.inside t ht
  exact ne_empty_of_parse ha

/-- A text of a network that is not denoted is not taken. -/
theorem toText_not_mem {a : Addr} (h : some a ∉ n.taken.map parse) : a.toText ∉ n.taken := by
  intro hin
  apply h
  exact List.mem_map.mpr ⟨_, hin, parse_toText a⟩

/-- What the search for a free subnet gives. -/
theorem search_free (hrange : range.len = 16) (h : SubnetsSound range n) {first : Addr}
    (hflen : first.len = 24) (hfbase : first.base = range.base + 512) :
    (search Addr.nextSibling (fun a => decide (a.toText ∈ n.reservedSubnetsOf))
        (n.reservedSubnetsOf.length + 1) first = none ∧ FreeLeft range n) ∨
      ∃ b, search Addr.nextSibling (fun a => decide (a.toText ∈ n.reservedSubnetsOf))
          (n.reservedSubnetsOf.length + 1) first = some b ∧ b.toText ∉ n.taken ∧
        (IsSubnet range b ∧ some b ∉ n.taken.map parse ↔ FreeLeft range n) := by
  have hsize : first.size = 256 := Addr.size_of_subnet hflen
  -- the loop reaches every subnet from the third one on
  have hreach : ∀ b : Addr, b.len = 24 → range.base + 512 ≤ b.base →
      ∃ k, follow Addr.nextSibling k first = some b ∧ b.base = first.base + k * 256 := by
    intro b hblen hlow
    obtain ⟨i, hi⟩ := b.aligned
    obtain ⟨j, hj⟩ := first.aligned
    rw [hblen] at hi
    rw [hflen] at hj
    have hplace : b.base = first.base + (i - j) * 256 := by omega
    exact ⟨i - j, follow_eq_some_iff.mpr ⟨hblen.trans hflen.symm, by rw [hsize, hplace]⟩, hplace⟩
  cases hsearch : search Addr.nextSibling (fun a => decide (a.toText ∈ n.reservedSubnetsOf))
      (n.reservedSubnetsOf.length + 1) first with
  | none =>
    refine Or.inl ⟨rfl, Or.inr ?_⟩
    have hall : ∀ b : Addr, b.len = 24 → range.base + 512 ≤ b.base → b.toText ∈ n.taken := by
      intro b hblen hlow
      obtain ⟨k, hk, -⟩ := hreach b hblen hlow
      by_contra hnot
      obtain ⟨m, -, c, hfree⟩ := @exists_free_of_follow _ _
        (fun a => decide (a.toText ∈ n.reservedSubnetsOf)) _ _ _ hk
        (decide_eq_false ((mem_reservedSubnetsOf_iff h).not.mpr hnot))
      have hsome := (search_eq_some_iff_free (distinct_siblings first)).mpr ⟨m, hfree⟩
      rw [hsearch] at hsome
      cases hsome
    refine ⟨?_, fun b hb hlow => hall b hb.1 hlow⟩
    -- a network behind the range is in no sound list
    by_contra hnext
    obtain ⟨r, hr⟩ := Option.ne_none_iff_exists'.mp hnext
    obtain ⟨-, hrbase⟩ := nextSibling_eq_some_iff.mp hr
    have hrsize : range.size = 65536 := by
      rw [Addr.size, hrange]
      rfl
    have hmask : (r.mask 24).len = 24 ∧ (r.mask 24).base = r.base / 2 ^ 8 * 2 ^ 8 := ⟨rfl, rfl⟩
    obtain ⟨i, hi⟩ := range.aligned
    rw [hrange] at hi
    obtain ⟨a, ha, hin⟩ := h.inside _ (hall (r.mask 24) hmask.1 (by omega))
    rw [parse_toText, Option.some.injEq] at ha
    have hlt := ((isSubnet_iff hrange).mp hin).2.2
    rw [← ha, hmask.2] at hlt
    omega
  | some b =>
    obtain ⟨k, hfollow, hnot, hbefore⟩ :=
      (search_eq_some_iff_free (distinct_siblings first)).mp hsearch
    have hnot' : b.toText ∉ n.taken :=
      (mem_reservedSubnetsOf_iff h).not.mp (of_decide_eq_false hnot)
    obtain ⟨hblen, hbbase⟩ := follow_eq_some_iff.mp hfollow
    rw [hflen] at hblen
    rw [hsize, hfbase] at hbbase
    have hlower : ∀ c : Addr, c.len = 24 → range.base + 512 ≤ c.base → c.base < b.base →
        c.toText ∈ n.taken := by
      intro c hclen hlow hlt
      obtain ⟨m, hm, hplace⟩ := hreach c hclen hlow
      have htaken := of_decide_eq_true (hbefore m (by omega) c hm)
      exact (mem_reservedSubnetsOf_iff h).mp htaken
    refine Or.inr ⟨b, rfl, hnot', ?_⟩
    constructor
    · rintro ⟨hsub, hnew⟩
      exact Or.inl ⟨b, hsub, by omega, hnew, fun c hc hlow hlt => hlower c hc.1 hlow hlt⟩
    · rintro (⟨a, hsub, hlow, hnew, hall⟩ | ⟨hend, hall⟩)
      · have hle : b.base ≤ a.base := by
          by_contra hgt
          exact toText_not_mem hnew (hlower a hsub.1 hlow (by omega))
        have heq : b = a := by
          refine Addr.ext ?_ (hblen.trans hsub.1.symm)
          by_contra hne
          have hin := (isSubnet_iff hrange).mp hsub
          exact hnot' (hall b ((isSubnet_iff hrange).mpr (by omega)) (by omega) (by omega))
        rw [heq]
        exact ⟨hsub, hnew⟩
      · exfalso
        by_cases hin : b.base < range.base + 65536
        · exact hnot' (hall b ((isSubnet_iff hrange).mpr (by omega)) (by omega))
        · have hrsize : range.size = 65536 := by
            rw [Addr.size, hrange]
            rfl
          have hblt := b.base_lt
          unfold Addr.nextSibling at hend
          rw [dif_pos (by omega)] at hend
          cases hend

/-! What the calls do to a sound network. -/

theorem soundIn_iff_of_same {s s' : Session} (h : SameSubnets s s')
    (hn : s.network.reservedSubnets.Nodup) :
    SubnetsSound range s'.network ↔ SubnetsSound range s.network := by
  have hmem : ∀ t, t ∈ s'.network.taken ↔ t ∈ s.network.taken := by
    intro t
    unfold Network.taken
    rw [h.held]
    constructor
    · intro ht
      rcases List.mem_append.mp ht with ht | ht
      · exact List.mem_append_left _ ht
      · exact h.taken t ht
    · intro ht
      rcases List.mem_append.mp ht with ht | ht
      · exact List.mem_append_left _ ht
      · exact List.mem_append_right _ (h.reserved t ht)
  constructor
  · rintro ⟨hin, hdistinct, hheld, -⟩
    refine ⟨fun t ht => hin t ((hmem t).mpr ht), fun t ht u hu =>
      hdistinct t ((hmem t).mpr ht) u ((hmem u).mpr hu), ?_, hn⟩
    rw [← h.held]
    exact hheld
  · rintro ⟨hin, hdistinct, hheld, hres⟩
    refine ⟨fun t ht => hin t ((hmem t).mp ht), fun t ht u hu =>
      hdistinct t ((hmem t).mp ht) u ((hmem u).mp hu), ?_, h.nodup hres⟩
    rw [h.held]
    exact hheld

/-- A subnet more that is reserved. -/
theorem sound_reserve_iff (h : SubnetsSound range n) (ht : t ∉ n.taken) :
    SubnetsSound range { n with reservedSubnets := n.reservedSubnets ++ [t] } ↔
      NewSubnet range n t := by
  have hmem : ∀ u, u ∈ Network.taken { n with reservedSubnets := n.reservedSubnets ++ [t] } ↔
      u ∈ n.taken ∨ u = t := by
    intro u
    simp only [Network.taken, Network.held, List.mem_append, List.mem_singleton, or_assoc]
  constructor
  · intro hs
    obtain ⟨a, ha, hsub⟩ := hs.inside t ((hmem t).mpr (Or.inr rfl))
    refine ⟨a, ha, hsub, fun hin => ?_⟩
    obtain ⟨u, hu, hpu⟩ := List.mem_map.mp hin
    have heq := hs.distinct u ((hmem u).mpr (Or.inl hu)) t ((hmem t).mpr (Or.inr rfl))
      (hpu.trans ha.symm)
    exact ht (heq ▸ hu)
  · rintro ⟨a, ha, hsub, hnew⟩
    have hother : ∀ u ∈ n.taken, parse u ≠ parse t := by
      intro u hu heq
      exact hnew (List.mem_map.mpr ⟨u, hu, heq.trans ha⟩)
    refine ⟨fun u hu => ?_, fun u hu v hv heq => ?_, h.held_nodup, ?_⟩
    · rcases (hmem u).mp hu with hu | rfl
      · exact h.inside u hu
      · exact ⟨a, ha, hsub⟩
    · rcases (hmem u).mp hu with hu' | hu'
      · rcases (hmem v).mp hv with hv' | hv'
        · exact h.distinct u hu' v hv' heq
        · rw [hv'] at heq
          exact absurd heq (hother u hu')
      · rcases (hmem v).mp hv with hv' | hv'
        · rw [hu'] at heq
          exact absurd heq.symm (hother v hv')
        · rw [hu', hv']
    · refine List.nodup_append.mpr ⟨h.reserved_nodup, List.nodup_singleton t, ?_⟩
      rintro u hu v hv rfl
      rw [List.mem_singleton.mp hv] at hu
      exact ht (List.mem_append_right _ hu)

/-- A subnet more that is held. -/
structure Holds (n n' : Network) (t : String) : Prop where
  held : n'.held.Perm (t :: n.held)
  reserved : n'.reservedSubnets = n.reservedSubnets

theorem Holds.mem_taken (h : Holds n n' t) (u : String) : u ∈ n'.taken ↔ u = t ∨ u ∈ n.taken := by
  unfold Network.taken
  rw [List.mem_append, h.held.mem_iff, h.reserved, List.mem_cons, List.mem_append, or_assoc]

theorem Holds.sound_of_sound (h : Holds n n' t) (hs : SubnetsSound range n') :
    SubnetsSound range n where
  inside u hu := hs.inside u ((h.mem_taken u).mpr (Or.inr hu))
  distinct u hu v hv :=
    hs.distinct u ((h.mem_taken u).mpr (Or.inr hu)) v ((h.mem_taken v).mpr (Or.inr hv))
  held_nodup := (List.nodup_cons.mp (h.held.nodup_iff.mp hs.held_nodup)).2
  reserved_nodup := h.reserved ▸ hs.reserved_nodup

theorem Holds.sound_iff (h : Holds n n' t) (hs : SubnetsSound range n) :
    SubnetsSound range n' ↔ Joins range n t := by
  have ht : t ∈ n'.taken := (h.mem_taken t).mpr (Or.inl rfl)
  constructor
  · intro hs'
    obtain ⟨a, ha, hsub⟩ := hs'.inside t ht
    refine ⟨(List.nodup_cons.mp (h.held.nodup_iff.mp hs'.held_nodup)).1, a, ha, hsub,
      fun u hu hpu => ?_⟩
    exact hs'.distinct u ((h.mem_taken u).mpr (Or.inr hu)) t ht (hpu.trans ha.symm)
  · rintro ⟨hnot, a, ha, hsub, hsame⟩
    refine ⟨fun u hu => ?_, fun u hu v hv heq => ?_, ?_, ?_⟩
    · rcases (h.mem_taken u).mp hu with rfl | hu
      · exact ⟨a, ha, hsub⟩
      · exact hs.inside u hu
    · rcases (h.mem_taken u).mp hu with rfl | hu
      · rcases (h.mem_taken v).mp hv with rfl | hv
        · rfl
        · exact (hsame v hv (heq.symm.trans ha)).symm
      · rcases (h.mem_taken v).mp hv with rfl | hv
        · exact hsame u hu (heq.trans ha)
        · exact hs.distinct u hu v hv heq
    · exact h.held.nodup_iff.mpr (List.nodup_cons.mpr ⟨hnot, hs.held_nodup⟩)
    · rw [h.reserved]
      exact hs.reserved_nodup

/-- A subnet that was just reserved joins. -/
theorem Holds.sound_iff_of_reserved (h : Holds n n' t) (hres : t ∈ n.reservedSubnets)
    (hheld : t ∉ n.held) : SubnetsSound range n' ↔ SubnetsSound range n := by
  refine ⟨h.sound_of_sound, fun hs => (h.sound_iff hs).mpr ⟨hheld, ?_⟩⟩
  have htaken : t ∈ n.taken := List.mem_append_right _ hres
  obtain ⟨a, ha, hsub⟩ := hs.inside t htaken
  exact ⟨a, ha, hsub, fun u hu hpu => hs.distinct u hu t htaken (hpu.trans ha.symm)⟩

theorem holds_network (n : Network) (z : Znet) :
    Holds n { n with networks := n.networks ++ [z] } z.subnet := by
  refine ⟨?_, rfl⟩
  unfold Network.held
  rw [List.map_append, List.map_singleton, List.append_assoc, List.singleton_append]
  exact List.perm_middle

theorem holds_accessPoint (n : Network) (a : AccessPoint) :
    Holds n { n with accessPoints := n.accessPoints ++ [a] } a.subnet := by
  refine ⟨?_, rfl⟩
  unfold Network.held
  rw [List.map_append, List.map_singleton, ← List.append_assoc]
  exact List.perm_append_singleton _ _

end

end ThreefoldSdk.Primitives
