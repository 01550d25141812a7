import ThreefoldSdk.Lib.Cut

/-! The listings of the storage backends (`storage/*.ts`): the names below a key. -/

namespace ThreefoldSdk.Storage

/-- A key as a path. -/
structure KeyPath where
  components : List (List Char)
  nonempty : components ≠ []
  plain : ∀ c ∈ components, c ≠ [] ∧ '/' ∉ c
deriving DecidableEq

namespace KeyPath

def toText (p : KeyPath) : List Char := ['/'].intercalate p.components

/-- The first component of the path below the key. -/
def below (key p : KeyPath) : Option (List Char) :=
  if key.components <+: p.components then (p.components.drop key.components.length).head? else none

end KeyPath

/-- The key without the prefix of the store. -/
def cropKey (key : List Char) : List Char :=
  match Cut.split "grid3_client/".toList key with
  | x :: y :: _ => if y = [] then x else y
  | [x] => x
  | [] => []

/-- `k.split(key)`, which cuts between all characters for an empty key. -/
def splitKey (key k : List Char) : List (List Char) :=
  if key = [] then k.map ([·]) else Cut.split key k

/-- `split`; nothing stands for `undefined`. A name that begins with the key has a second piece,
unless the key is empty. -/
def listEntry (key k : List Char) : Option (List Char) :=
  let splits := ((splitKey key k)[1]?.getD []).splitOn '/'
  if splits[0]? = some [] then splits[1]? else splits[0]?

/-- The loop over the stored names, and the set it fills. -/
def filteredKeys (keys : List (List Char)) (key : List Char) : List (Option (List Char)) :=
  ((keys.filter fun k => key.isPrefixOf k).map (listEntry key)).eraseDups

/-- `keys` is what the chain lists. -/
def TFKVStoreBackend.list (keys : List (List Char)) (key : List Char) : List (Option (List Char)) :=
  filteredKeys keys (cropKey key)

/-- `keys` are those of the browser's storage. -/
def LocalStorage.list (keys : List (List Char)) (key : List Char) : List (Option (List Char)) :=
  filteredKeys keys (cropKey key)

/-- `keys` is `listAll`. -/
def PKID.list (keys : List (List Char)) (key : List Char) : List (Option (List Char)) :=
  filteredKeys keys (cropKey key)

/-- The entries of the directory `key`, when the stored paths are files. -/
def FS.list (stored : List KeyPath) (key : KeyPath) : List (List Char) :=
  (stored.filterMap key.below).eraseDups

/-- The backends list what the file system does under the key, which is given as `text`. -/
def Agrees (stored : List KeyPath) (key : KeyPath) (text : List Char) : Prop :=
  ∀ x, (x ∈ TFKVStoreBackend.list (stored.map (·.toText)) text ↔ x ∈ (FS.list stored key).map some) ∧
    (x ∈ LocalStorage.list (stored.map (·.toText)) text ↔ x ∈ (FS.list stored key).map some) ∧
    (x ∈ PKID.list (stored.map (·.toText)) text ↔ x ∈ (FS.list stored key).map some)

/-- The path is below the key, and the text of the key does not begin again in the first component
below it. -/
def Shown (key p : KeyPath) : Prop :=
  ∃ c rest, p.components = key.components ++ c :: rest ∧
    ∀ b r, ['/'].intercalate (c :: rest) = b ++ key.toText ++ r → c.length ≤ b.length

theorem cropKey_cropKey (key : List Char) : cropKey (cropKey key) = cropKey key := by
  have hsep : "grid3_client/".toList ≠ [] := by decide
  have hclean : ∀ piece, ¬ "grid3_client/".toList <:+: piece → cropKey piece = piece := by
    intro piece hpiece
    unfold cropKey
    rw [Cut.split_of_not_infix hpiece]
  have hpieces : ∀ piece ∈ Cut.split "grid3_client/".toList key,
      ¬ "grid3_client/".toList <:+: piece :=
    fun piece => Cut.not_infix_of_mem_splitN hsep le_rfl
  apply hclean
  unfold cropKey
  split
  · rename_i x y rest hsplit
    rw [hsplit] at hpieces
    split
    · exact hpieces x List.mem_cons_self
    · exact hpieces y (List.mem_cons_of_mem _ List.mem_cons_self)
  · rename_i x hsplit
    rw [hsplit] at hpieces
    exact hpieces x List.mem_cons_self
  · exact fun hin => hsep (List.infix_nil.mp hin)

theorem intercalate_cons (c : List Char) (rest : List (List Char)) :
    ∃ tail, ['/'].intercalate (c :: rest) = c ++ tail ∧ (tail = [] ∨ ∃ t, tail = '/' :: t) := by
  cases rest with
  | nil => exact ⟨[], by simp, Or.inl rfl⟩
  | cons d rest => exact ⟨'/' :: ['/'].intercalate (d :: rest), by simp, Or.inr ⟨_, rfl⟩⟩

theorem intercalate_append {xs ys : List (List Char)} (hx : xs ≠ []) (hy : ys ≠ []) :
    ['/'].intercalate (xs ++ ys) = ['/'].intercalate xs ++ '/' :: ['/'].intercalate ys := by
  induction xs with
  | nil => exact absurd rfl hx
  | cons x xs ih =>
    cases xs with
    | nil =>
      obtain ⟨y, ys, rfl⟩ := List.exists_cons_of_ne_nil hy
      simp
    | cons x' xs =>
      have hrest := ih (List.cons_ne_nil _ _)
      simp only [List.cons_append] at hrest ⊢
      simp [hrest]

section
variable {key p : KeyPath}

theorem KeyPath.toText_ne_nil (key : KeyPath) : key.toText ≠ [] := by
  obtain ⟨c, rest, hc⟩ := List.exists_cons_of_ne_nil key.nonempty
  obtain ⟨tail, htail, -⟩ := intercalate_cons c rest
  have hne : c ≠ [] := (key.plain c (hc ▸ List.mem_cons_self)).1
  unfold KeyPath.toText
  rw [hc, htail]
  exact List.append_ne_nil_of_left_ne_nil hne _

/-- The text of a path does not begin with a slash. -/
theorem KeyPath.toText_not_slash (key : KeyPath) (s : List Char) : key.toText ≠ '/' :: s := by
  obtain ⟨c, rest, hc⟩ := List.exists_cons_of_ne_nil key.nonempty
  obtain ⟨tail, htail, -⟩ := intercalate_cons c rest
  obtain ⟨hne, hslash⟩ := key.plain c (hc ▸ List.mem_cons_self)
  obtain ⟨a, c, rfl⟩ := List.exists_cons_of_ne_nil hne
  unfold KeyPath.toText
  rw [hc, htail]
  intro heq
  rw [List.cons_append, List.cons.injEq] at heq
  exact hslash (heq.1 ▸ List.mem_cons_self)

/-- Where a text begins with a slash, the text of a path begins only later in it. -/
theorem KeyPath.not_first (key : KeyPath) {s r : List Char} :
    '/' :: s ≠ [] ++ key.toText ++ r := by
  intro hocc
  obtain ⟨a, k, hk⟩ := List.exists_cons_of_ne_nil key.toText_ne_nil
  rw [hk, List.nil_append, List.cons_append, List.cons.injEq] at hocc
  rw [← hocc.1] at hk
  exact key.toText_not_slash k hk

theorem KeyPath.below_eq_some_iff {c : List Char} :
    key.below p = some c ↔ ∃ rest, p.components = key.components ++ c :: rest := by
  unfold KeyPath.below
  split
  · rename_i hstart
    obtain ⟨t, ht⟩ := hstart
    rw [← ht, List.drop_left]
    cases t with
    | nil => simp
    | cons d t => simp
  · rename_i hstart
    refine iff_of_false (fun h => nomatch h) ?_
    intro h
    obtain ⟨rest, hrest⟩ := h
    exact hstart ⟨_, hrest.symm⟩

theorem toText_of_below {c : List Char} {rest : List (List Char)}
    (h : p.components = key.components ++ c :: rest) :
    p.toText = key.toText ++ '/' :: ['/'].intercalate (c :: rest) := by
  unfold KeyPath.toText
  rw [h]
  exact intercalate_append key.nonempty (List.cons_ne_nil _ _)

theorem splitOn_slash {a : List Char} (ha : '/' ∉ a) {t : List Char}
    (ht : t = [] ∨ ∃ s, t = '/' :: s) : ((a ++ t).splitOn '/')[0]? = some a := by
  rcases ht with rfl | ⟨s, rfl⟩
  · rw [List.append_nil, List.splitOn_eq_singleton ha]
    rfl
  · rw [List.splitOn_append_cons_self_of_not_mem ha]
    rfl

/-- The entry of a path below the key is the first component below it, cut where the text of the key
begins again. -/
theorem listEntry_below {c : List Char} {rest : List (List Char)}
    (h : p.components = key.components ++ c :: rest) :
    listEntry key.toText p.toText = some (c.take
      ((Cut.before key.toText ('/' :: ['/'].intercalate (c :: rest))).length - 1)) := by
  have hplain : '/' ∉ c := by
    have hc : c ∈ p.components := by
      rw [h]
      exact List.mem_append_right _ List.mem_cons_self
    exact (p.plain c hc).2
  obtain ⟨tail, htail, hslash⟩ := intercalate_cons c rest
  have hsecond : (Cut.split key.toText p.toText)[1]? =
      some (Cut.before key.toText ('/' :: ['/'].intercalate (c :: rest))) := by
    rw [toText_of_below h]
    exact Cut.second_split key.toText_ne_nil _
  rw [htail] at hsecond ⊢
  -- the key does not begin with the slash
  have hfirst : 1 ≤ (Cut.before key.toText ('/' :: (c ++ tail))).length := by
    apply (Cut.le_length_before_iff key.toText_ne_nil (by simp)).mpr
    intro b r hocc
    cases b with
    | nil => exact absurd hocc key.not_first
    | cons a b => exact Nat.succ_le_succ (Nat.zero_le _)
  obtain ⟨t, ht⟩ := Cut.before_prefix key.toText ('/' :: (c ++ tail))
  obtain ⟨a, piece, hpiece⟩ : ∃ a piece, Cut.before key.toText ('/' :: (c ++ tail)) = a :: piece :=
    List.exists_cons_of_ne_nil (List.ne_nil_of_length_pos hfirst)
  rw [hpiece] at hsecond ht ⊢
  rw [List.cons_append, List.cons.injEq] at ht
  obtain ⟨rfl, ht⟩ := ht
  have hnone : '/' ∉ ([] : List Char) := List.not_mem_nil
  have hsplits : ('/' :: piece).splitOn '/' = [] :: piece.splitOn '/' :=
    List.splitOn_append_cons_self_of_not_mem hnone piece
  unfold listEntry splitKey
  rw [if_neg key.toText_ne_nil]
  rw [hsecond, Option.getD_some, hsplits]
  show (piece.splitOn '/')[0]? = some (c.take piece.length)
  rcases Nat.le_total c.length piece.length with hle | hle
  · obtain ⟨t', ht'⟩ := List.prefix_of_prefix_length_le ⟨tail, rfl⟩ ⟨t, ht⟩ hle
    rw [List.take_of_length_le hle, ← ht']
    apply splitOn_slash hplain
    rw [← ht', List.append_assoc, List.append_cancel_left_eq] at ht
    rcases hslash with rfl | ⟨s, rfl⟩
    · exact Or.inl (List.append_eq_nil_iff.mp ht).1
    · cases t' with
      | nil => exact Or.inl rfl
      | cons b t' =>
        rw [List.cons_append, List.cons.injEq] at ht
        exact Or.inr ⟨t', by rw [ht.1]⟩
  · obtain ⟨t', ht'⟩ := List.prefix_of_prefix_length_le ⟨t, ht⟩ ⟨tail, rfl⟩ hle
    have hnot : '/' ∉ piece := fun hin => hplain (ht' ▸ List.mem_append_left _ hin)
    have hone := splitOn_slash hnot (Or.inl rfl)
    rw [List.append_nil] at hone
    rw [hone, ← ht', List.take_left]

/-- Below the key the entry is the first component exactly when the text of the key does not begin
again in it. -/
theorem listEntry_eq_iff {c : List Char} {rest : List (List Char)}
    (h : p.components = key.components ++ c :: rest) :
    listEntry key.toText p.toText = some c ↔
      ∀ b r, ['/'].intercalate (c :: rest) = b ++ key.toText ++ r → c.length ≤ b.length := by
  obtain ⟨tail, htail, -⟩ := intercalate_cons c rest
  have hc : c ∈ p.components := by
    rw [h]
    exact List.mem_append_right _ List.mem_cons_self
  have hpos : 0 < c.length := List.length_pos_iff.mpr (p.plain c hc).1
  have hle : c.length + 1 ≤ ('/' :: ['/'].intercalate (c :: rest)).length := by
    rw [htail]
    simp
  have hreach : c.length ≤ (Cut.before key.toText ('/' :: ['/'].intercalate (c :: rest))).length - 1 ↔
      c.length + 1 ≤ (Cut.before key.toText ('/' :: ['/'].intercalate (c :: rest))).length := by
    omega
  rw [listEntry_below h, Option.some.injEq, List.take_eq_self_iff, hreach,
    Cut.le_length_before_iff key.toText_ne_nil hle]
  constructor
  · intro hall b r hocc
    have hlater := hall ('/' :: b) r (by rw [hocc]; rfl)
    exact Nat.le_of_succ_le_succ hlater
  · intro hall b r hocc
    cases b with
    | nil => exact absurd hocc key.not_first
    | cons a b =>
      rw [List.cons_append, List.cons_append, List.cons.injEq] at hocc
      exact Nat.succ_le_succ (hall b r hocc.2)

theorem prefix_of_below {c : List Char} (h : key.below p = some c) : key.toText <+: p.toText := by
  obtain ⟨rest, hrest⟩ := KeyPath.below_eq_some_iff.mp h
  rw [toText_of_below hrest]
  exact List.prefix_append _ _

/-- A path is shown exactly when its entry is the component below the key. -/
theorem shown_iff : Shown key p ↔ ∃ c, key.below p = some c ∧
    listEntry key.toText p.toText = some c := by
  constructor
  · intro h
    obtain ⟨c, rest, hrest, hocc⟩ := h
    exact ⟨c, KeyPath.below_eq_some_iff.mpr ⟨rest, hrest⟩, (listEntry_eq_iff hrest).mpr hocc⟩
  · intro h
    obtain ⟨c, hbelow, hentry⟩ := h
    obtain ⟨rest, hrest⟩ := KeyPath.below_eq_some_iff.mp hbelow
    exact ⟨c, rest, hrest, (listEntry_eq_iff hrest).mp hentry⟩

theorem mem_filteredKeys {stored : List KeyPath} {x : Option (List Char)} :
    x ∈ filteredKeys (stored.map (·.toText)) key.toText ↔
      ∃ p ∈ stored, key.toText <+: p.toText ∧ listEntry key.toText p.toText = x := by
  unfold filteredKeys
  simp only [List.mem_eraseDups, List.mem_map, List.mem_filter, List.isPrefixOf_iff_prefix,
    exists_exists_and_eq_and, and_assoc]

theorem mem_list {stored : List KeyPath} {x : Option (List Char)} :
    x ∈ (FS.list stored key).map some ↔ ∃ p ∈ stored, ∃ c, key.below p = some c ∧ x = some c := by
  unfold FS.list
  simp only [List.mem_map, List.mem_eraseDups, List.mem_filterMap]
  constructor
  · intro h
    obtain ⟨c, ⟨p, hp, hc⟩, rfl⟩ := h
    exact ⟨p, hp, c, hc, rfl⟩
  · intro h
    obtain ⟨p, hp, c, hc, rfl⟩ := h
    exact ⟨c, ⟨p, hp, hc⟩, rfl⟩

/-- A set of stored paths and all sets inside it are listed under the key as the file system does,
exactly when every path whose text begins with the key's is shown. -/
theorem lists_agree_iff (stored : List KeyPath)
    {text : List Char} (htext : cropKey text = key.toText) :
    (∀ paths ⊆ stored, Agrees paths key text) ↔
      ∀ p ∈ stored, key.toText <+: p.toText → Shown key p := by
  have hagrees : ∀ paths, Agrees paths key text ↔
      ∀ x, x ∈ filteredKeys (paths.map (·.toText)) key.toText ↔ x ∈ (FS.list paths key).map some := by
    intro paths
    unfold Agrees TFKVStoreBackend.list LocalStorage.list PKID.list
    rw [htext]
    exact forall_congr' fun x => by rw [and_self, and_self]
  simp only [hagrees, mem_filteredKeys, mem_list]
  constructor
  · intro h p hp hstart
    obtain ⟨q, hq, c, hc, hentry⟩ := (h [p] (by simpa using hp)
      (listEntry key.toText p.toText)).mp ⟨p, List.mem_singleton_self p, hstart, rfl⟩
    rw [List.mem_singleton.mp hq] at hc
    exact shown_iff.mpr ⟨c, hc, hentry⟩
  · intro h paths hpaths x
    constructor
    · intro hx
      obtain ⟨p, hp, hstart, rfl⟩ := hx
      obtain ⟨c, hc, hentry⟩ := shown_iff.mp (h p (hpaths hp) hstart)
      exact ⟨p, hp, c, hc, hentry⟩
    · intro hx
      obtain ⟨p, hp, c, hc, rfl⟩ := hx
      have hstart := prefix_of_below hc
      obtain ⟨d, hd, hentry⟩ := shown_iff.mp (h p (hpaths hp) hstart)
      rw [hc, Option.some.injEq] at hd
      exact ⟨p, hp, hstart, hd ▸ hentry⟩

end

def machinesPath : KeyPath where
  components := ["vm".toList, "machines".toList]
  nonempty := by decide
  plain := by decide

/-- The contracts of a deployment. -/
def webPath : KeyPath where
  components := ["vm".toList, "machines".toList, "web".toList, "contracts.json".toList]
  nonempty := by decide
  plain := by decide

def otherPath : KeyPath where
  components := ["vm".toList, "machines2".toList, "db".toList, "contracts.json".toList]
  nonempty := by decide
  plain := by decide

theorem web_listed :
    Agrees [webPath] machinesPath "grid3_client/vm/machines".toList := by
  refine (lists_agree_iff [webPath] (by decide)).mpr ?_ [webPath] (List.Subset.refl _)
  intro p hp _
  rw [List.mem_singleton.mp hp]
  exact shown_iff.mpr ⟨"web".toList, by decide, by decide⟩

/-- The name of another module that begins with the same letters shows up. -/
theorem otherModule_listed :
    ¬ Agrees [webPath, otherPath] machinesPath "grid3_client/vm/machines".toList := by
  intro h
  have hin := (h (some "2".toList)).1.mp (by decide)
  exact absurd hin (by decide)

end ThreefoldSdk.Storage
