import ThreefoldSdk.Primitives.Subnets

/-! The texts in the allowed ips of a peer: subnets, each with its routing ip. -/

namespace ThreefoldSdk.Primitives
open Zos Ipv4 Frame

/-- The text is the subnet or its routing ip. -/
def InPair (subnet t : String) : Prop := t = subnet ∨ wgRoutingIP subnet = .ok t

/-- The access points of a node. -/
def pointsOf (accessPoints : List AccessPoint) (nodeId : Option Nat) : List AccessPoint :=
  accessPoints.filter fun a => nodeId = some a.nodeId

theorem mem_pointsOf {points : List AccessPoint} {nodeId : Option Nat} {a : AccessPoint} :
    a ∈ pointsOf points nodeId ↔ a ∈ points ∧ nodeId = some a.nodeId := by
  rw [pointsOf, List.mem_filter, decide_eq_true_eq]

section
variable {range : Addr} {t u v r : String}

theorem wgRoutingIP_of_subnet {a : Addr} (h : parse u = some a) (hlen : a.len = 24) :
    ∃ r b, wgRoutingIP u = .ok r ∧ parse r = some b ∧ b.len = 32 ∧
      b.base = 100 * 2 ^ 24 + 64 * 2 ^ 16 + a.base / 256 % 65536 := by
  obtain ⟨w, x, y, rest, i, j, k, hsplit, ⟨hx, hy⟩, hlt, hbase⟩ := splitText_of_subnet h hlen
  have hroute : wgRoutingIP u = .ok ("100.64." ++ x ++ "." ++ y ++ "/32") := by
    have hplain : beforeSlash y = y := by
      rw [beforeSlash, splitText_single (not_mem_of_parseDecimal hy (by decide)), List.headD_cons]
    unfold wgRoutingIP
    rw [hsplit]
    simp only [hplain]
  have htext : "100.64." ++ x ++ "." ++ y ++ "/32" =
      "100" ++ "." ++ "64" ++ "." ++ x ++ "." ++ y ++ "/" ++ "32" := by
    have hhead : ("100.64." : String) = "100" ++ "." ++ "64" ++ "." := by decide
    have htail : ("/32" : String) = "/" ++ "32" := by decide
    rw [hhead, htail, ← String.append_assoc]
  have hparse := parse_octets (show parseDecimal "100" = some 100 by decide)
    (show parseDecimal "64" = some 64 by decide) hx hy ⟨by decide, by decide, hlt.2.1, hlt.2.2⟩
    (show parseDecimal "32" = some 32 by decide)
  have hip : 100 * 2 ^ 24 + 64 * 2 ^ 16 + j * 2 ^ 8 + k < 2 ^ 32 := by omega
  refine ⟨_, host _ hip, hroute, ?_, rfl, ?_⟩
  · rw [htext, hparse]
    exact network?_self (host _ hip)
  · change 100 * 2 ^ 24 + 64 * 2 ^ 16 + j * 2 ^ 8 + k = _
    rw [hbase]
    omega

theorem len_of_wgRoutingIP (h : wgRoutingIP u = .ok r) {a : Addr} (ha : parse r = some a) :
    a.len = 32 := by
  unfold wgRoutingIP at h
  split at h
  · rename_i w x y rest hsplit
    have hr := Except.ok.inj h
    have htext : "100.64." ++ x ++ "." ++ beforeSlash y ++ "/32" =
        "100.64." ++ x ++ "." ++ beforeSlash y ++ "/" ++ "32" := by
      have htail : ("/32" : String) = "/" ++ "32" := by decide
      rw [htail, ← String.append_assoc]
    rw [← hr, htext] at ha
    exact len_of_parse_slash (by decide) ha
  · cases h

/-- No subnet is a routing ip. -/
theorem InPair.eq_of_subnet (h : InPair v t) {a : Addr} (ha : parse t = some a)
    (hlen : a.len = 24) : t = v := by
  rcases h with rfl | h
  · rfl
  · rw [len_of_wgRoutingIP h ha] at hlen
    cases hlen

/-- A text stands for one subnet of the range at most. -/
theorem InPair.unique (hrange : range.len = 16) {a b : Addr} (hu : InPair u t) (hv : InPair v t)
    (ha : parse u = some a) (hb : parse v = some b) (hina : IsSubnet range a)
    (hinb : IsSubnet range b) : a = b := by
  rcases hu with rfl | hu
  · have heq := hv.eq_of_subnet ha hina.1
    rw [heq, hb] at ha
    exact (Option.some.inj ha).symm
  · rcases hv with rfl | hv
    · have hlen := len_of_wgRoutingIP hu hb
      rw [hinb.1] at hlen
      cases hlen
    · obtain ⟨r, c, hr, hc, -, hcbase⟩ := wgRoutingIP_of_subnet ha hina.1
      obtain ⟨r', d, hr', hd, -, hdbase⟩ := wgRoutingIP_of_subnet hb hinb.1
      obtain rfl : r = t := Except.ok.inj (hr.symm.trans hu)
      obtain rfl : r' = r := Except.ok.inj (hr'.symm.trans hv)
      obtain rfl : c = d := Option.some.inj (hc.symm.trans hd)
      obtain ⟨halen, halow, hahigh⟩ := (isSubnet_iff hrange).mp hina
      obtain ⟨hblen, hblow, hbhigh⟩ := (isSubnet_iff hrange).mp hinb
      obtain ⟨i, hi⟩ := a.aligned
      obtain ⟨j, hj⟩ := b.aligned
      rw [halen] at hi
      rw [hblen] at hj
      refine Addr.ext ?_ (halen.trans hblen.symm)
      omega

theorem mem_allowed {ips : List String} (h : allowed u = .ok ips) : t ∈ ips ↔ InPair u t := by
  obtain ⟨r, hr, h⟩ := exceptBind_eq_ok.mp h
  cases h
  unfold InPair
  rw [hr, List.mem_cons, List.mem_singleton, Except.ok.injEq, eq_comm (a := r)]

theorem mem_allAllowed {us ips : List String} (h : allAllowed us = .ok ips) :
    t ∈ ips ↔ ∃ u ∈ us, InPair u t := by
  induction us generalizing ips with
  | nil =>
    cases h
    simp
  | cons u us ih =>
    obtain ⟨own, hu, h⟩ := exceptBind_eq_ok.mp h
    obtain ⟨rest, hus, h⟩ := exceptBind_eq_ok.mp h
    cases h
    rw [List.mem_append, mem_allowed hu, ih hus, List.exists_mem_cons_iff]

/-- An access point whose subnet is there already adds nothing. -/
theorem mem_withAccessPoints {net : Znet} {points : List AccessPoint} {us ips ips' : List String}
    (hsubnets : ∀ a ∈ points, ∃ b, parse a.subnet = some b ∧ b.len = 24)
    (hips : ∀ t, t ∈ ips ↔ ∃ u ∈ us, InPair u t)
    (h : withAccessPoints net points ips = .ok ips') (t : String) :
    t ∈ ips' ↔ ∃ u ∈ us ++ (pointsOf points net.nodeId).map (·.subnet), InPair u t := by
  induction points generalizing us ips with
  | nil =>
    cases h
    rw [hips t, pointsOf, List.filter_nil, List.map_nil, List.append_nil]
  | cons a points ih =>
    have hrest := fun b hb => hsubnets b (List.mem_cons_of_mem _ hb)
    rw [withAccessPoints] at h
    by_cases hnode : net.nodeId = some a.nodeId
    · have hpoints : pointsOf (a :: points) net.nodeId = a :: pointsOf points net.nodeId := by
        rw [pointsOf, List.filter_cons_of_pos (by simpa using hnode)]
        rfl
      rw [hpoints, List.map_cons]
      by_cases hin : a.subnet ∈ ips
      · rw [if_neg fun hcond => hcond.2 hin] at h
        obtain ⟨b, hb, hlen⟩ := hsubnets a List.mem_cons_self
        obtain ⟨u, hu, hpair⟩ := (hips a.subnet).mp hin
        have heq := hpair.eq_of_subnet hb hlen
        rw [ih hrest hips h]
        constructor
        · rintro ⟨v, hv, hvt⟩
          refine ⟨v, ?_, hvt⟩
          rcases List.mem_append.mp hv with hv | hv
          · exact List.mem_append_left _ hv
          · exact List.mem_append_right _ (List.mem_cons_of_mem _ hv)
        · rintro ⟨v, hv, hvt⟩
          refine ⟨v, ?_, hvt⟩
          rcases List.mem_append.mp hv with hv | hv
          · exact List.mem_append_left _ hv
          · rcases List.mem_cons.mp hv with rfl | hv
            · rw [heq]
              exact List.mem_append_left _ hu
            · exact List.mem_append_right _ hv
      · rw [if_pos ⟨hnode.symm, hin⟩] at h
        obtain ⟨own, hown, h⟩ := exceptBind_eq_ok.mp h
        have hnext : ∀ t, t ∈ ips ++ own ↔ ∃ u ∈ us ++ [a.subnet], InPair u t := by
          intro t
          rw [List.mem_append, hips t, mem_allowed hown]
          simp only [List.mem_append, List.mem_singleton, or_and_right, exists_or, exists_eq_left]
        rw [ih hrest hnext h, List.append_assoc, List.singleton_append]
    · rw [if_neg fun hcond => hnode hcond.1.symm] at h
      have hpoints : pointsOf (a :: points) net.nodeId = pointsOf points net.nodeId := by
        rw [pointsOf, List.filter_cons_of_neg (by simpa using hnode)]
        rfl
      rw [hpoints]
      exact ih hrest hips h

theorem mem_allowedIpsOf {net : Znet} {points : List AccessPoint} {others ips : List String}
    (hsubnets : ∀ a ∈ points, ∃ b, parse a.subnet = some b ∧ b.len = 24)
    (h : allowedIpsOf points net others = .ok ips) (t : String) :
    t ∈ ips ↔ ∃ u ∈ others ++ net.subnet :: (pointsOf points net.nodeId).map (·.subnet),
      InPair u t := by
  obtain ⟨before, hothers, h⟩ := exceptBind_eq_ok.mp h
  obtain ⟨own, hown, h⟩ := exceptBind_eq_ok.mp h
  have hstart : ∀ t, t ∈ before ++ own ↔ ∃ u ∈ others ++ [net.subnet], InPair u t := by
    intro t
    rw [List.mem_append, mem_allAllowed hothers, mem_allowed hown]
    simp only [List.mem_append, List.mem_singleton, or_and_right, exists_or, exists_eq_left]
  rw [mem_withAccessPoints hsubnets hstart h, List.append_assoc, List.singleton_append]

end

end ThreefoldSdk.Primitives
