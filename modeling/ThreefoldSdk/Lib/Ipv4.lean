import ThreefoldSdk.Lib.FirstFree

/-! IPv4 networks: their texts, the networks inside them and beside them. An address is a network of
length 32. -/

namespace Ipv4

/-- The parts of a text between the separators. -/
def splitText (c : Char) (s : String) : List String := (s.toList.splitOn c).map String.ofList

def parseDecimal (s : String) : Option Nat :=
  if s.toList ≠ [] ∧ s.toList.all Char.isDigit then some (Nat.ofDigitChars 10 s.toList 0) else none

/-- The first address of a network and the length of the part its addresses share. -/
@[ext]
structure Addr where
  base : Nat
  len : Nat
  len_le : len ≤ 32
  aligned : 2 ^ (32 - len) ∣ base
  base_lt : base < 2 ^ 32
deriving DecidableEq

namespace Addr

def size (a : Addr) : Nat := 2 ^ (32 - a.len)

theorem size_pos (a : Addr) : 0 < a.size := Nat.two_pow_pos _

theorem size_of_subnet {a : Addr} (h : a.len = 24) : a.size = 256 := by
  rw [size, h]
  rfl

theorem size_of_host {a : Addr} (h : a.len = 32) : a.size = 1 := by
  rw [size, h]
  rfl

/-- The network of an address. -/
def network (ip len : Nat) (hip : ip < 2 ^ 32) (hlen : len ≤ 32) : Addr where
  base := ip / 2 ^ (32 - len) * 2 ^ (32 - len)
  len := len
  len_le := hlen
  aligned := Nat.dvd_mul_left ..
  base_lt := lt_of_le_of_lt (Nat.div_mul_le_self ..) hip

def network? (ip len : Nat) : Option Addr :=
  if h : ip < 2 ^ 32 ∧ len ≤ 32 then some (network ip len h.1 h.2) else none

/-- The network of the first address, of another length. -/
def mask (a : Addr) (n : Nat) : Addr := network a.base (min n 32) a.base_lt (min_le_right ..)

def contains (a b : Addr) : Bool :=
  decide (a.len ≤ b.len ∧ a.base ≤ b.base ∧ b.base < a.base + a.size)

/-- The network of the same length that follows, unless the address space ends. -/
def nextSibling (a : Addr) : Option Addr :=
  if h : a.base + a.size < 2 ^ 32 then
    some ⟨a.base + a.size, a.len, a.len_le, Nat.dvd_add a.aligned (dvd_refl _), h⟩
  else none

/-- The following address. -/
def increment (a : Addr) : Option Addr := a.nextSibling

end Addr

/-! Texts. -/

def addressText (ip : Nat) : String :=
  toString (ip / 2 ^ 24) ++ "." ++ toString (ip / 2 ^ 16 % 256) ++ "." ++
    toString (ip / 2 ^ 8 % 256) ++ "." ++ toString (ip % 256)

def Addr.toText (a : Addr) : String := addressText a.base ++ "/" ++ toString a.len

def parseAddress (s : String) : Option Nat :=
  match (splitText '.' s).map parseDecimal with
  | [some a, some b, some c, some d] =>
    if a < 256 ∧ b < 256 ∧ c < 256 ∧ d < 256 then
      some (a * 2 ^ 24 + b * 2 ^ 16 + c * 2 ^ 8 + d)
    else none
  | _ => none

def parse (s : String) : Option Addr :=
  match splitText '/' s with
  | [ip] => (parseAddress ip).bind fun ip => Addr.network? ip 32
  | [ip, len] => (parseAddress ip).bind fun ip => (parseDecimal len).bind (Addr.network? ip)
  | _ => none

theorem isDigit_of_mem_toString {n : Nat} {c : Char} (h : c ∈ (toString n).toList) :
    c.isDigit = true := by
  change c ∈ (Nat.repr n).toList at h
  rw [Nat.toList_repr] at h
  exact Nat.isDigit_of_mem_toDigits (by decide) (by decide) h

theorem parseDecimal_toString (n : Nat) : parseDecimal (toString n) = some n := by
  have hdigits : (toString n).toList = Nat.toDigits 10 n := Nat.toList_repr
  have hne : (toString n).toList ≠ [] := by
    rw [hdigits]
    exact Nat.toDigits_ne_nil
  have hall : (toString n).toList.all Char.isDigit = true :=
    List.all_eq_true.mpr fun c hc => isDigit_of_mem_toString hc
  rw [parseDecimal, if_pos ⟨hne, hall⟩, hdigits, Nat.ofDigitChars_ten_toDigits]

/-- A separator stands in no decimal text. -/
theorem not_mem_toString {c : Char} (hc : c.isDigit = false) (n : Nat) :
    c ∉ (toString n).toList := by
  intro h
  rw [isDigit_of_mem_toString h] at hc
  cases hc

theorem splitText_cons {c : Char} {s : String} (hs : c ∉ s.toList) (t : String) :
    splitText c (s ++ String.singleton c ++ t) = s :: splitText c t := by
  unfold splitText
  rw [String.toList_append, String.toList_append, String.toList_singleton, List.append_assoc,
    List.singleton_append, List.splitOn_append_cons_self_of_not_mem hs, List.map_cons,
    String.ofList_toList]

theorem splitText_single {c : Char} {s : String} (hs : c ∉ s.toList) : splitText c s = [s] := by
  unfold splitText
  rw [List.splitOn_eq_singleton hs, List.map_singleton, String.ofList_toList]

theorem dot_not_mem (n : Nat) : '.' ∉ (toString n).toList := not_mem_toString (by decide) n

theorem splitText_addressText (ip : Nat) : splitText '.' (addressText ip) =
    [toString (ip / 2 ^ 24), toString (ip / 2 ^ 16 % 256), toString (ip / 2 ^ 8 % 256),
      toString (ip % 256)] := by
  have hassoc : addressText ip = toString (ip / 2 ^ 24) ++ String.singleton '.' ++
      (toString (ip / 2 ^ 16 % 256) ++ String.singleton '.' ++
        (toString (ip / 2 ^ 8 % 256) ++ String.singleton '.' ++ toString (ip % 256))) := by
    unfold addressText
    simp only [String.append_assoc]
    rfl
  rw [hassoc, splitText_cons (dot_not_mem _), splitText_cons (dot_not_mem _),
    splitText_cons (dot_not_mem _), splitText_single (dot_not_mem _)]

theorem parseAddress_addressText {ip : Nat} (hip : ip < 2 ^ 32) :
    parseAddress (addressText ip) = some ip := by
  have hfirst : ip / 2 ^ 24 < 256 := by omega
  unfold parseAddress
  rw [splitText_addressText]
  simp only [List.map_cons, List.map_nil, parseDecimal_toString]
  rw [if_pos ⟨hfirst, Nat.mod_lt _ (by decide), Nat.mod_lt _ (by decide), Nat.mod_lt _ (by decide)⟩]
  congr 1
  omega

theorem slash_not_mem_addressText (ip : Nat) : '/' ∉ (addressText ip).toList := by
  unfold addressText
  simp only [String.toList_append, List.mem_append, not_or]
  have hslash : ∀ n, '/' ∉ (toString n).toList := not_mem_toString (by decide)
  have hdot : '/' ∉ ".".toList := by decide
  exact ⟨⟨⟨⟨⟨⟨hslash _, hdot⟩, hslash _⟩, hdot⟩, hslash _⟩, hdot⟩, hslash _⟩

theorem splitText_toText (a : Addr) :
    splitText '/' a.toText = [addressText a.base, toString a.len] := by
  have hone : a.toText = addressText a.base ++ String.singleton '/' ++ toString a.len := rfl
  rw [hone, splitText_cons (slash_not_mem_addressText _),
    splitText_single (not_mem_toString (by decide) _)]

theorem network?_self (a : Addr) : Addr.network? a.base a.len = some a := by
  unfold Addr.network?
  rw [dif_pos ⟨a.base_lt, a.len_le⟩]
  simp only [Addr.network, Nat.div_mul_cancel a.aligned]

/-- A network is read back from its text. -/
theorem parse_toText (a : Addr) : parse a.toText = some a := by
  unfold parse
  rw [splitText_toText]
  simp only [parseAddress_addressText a.base_lt, Option.bind_some, parseDecimal_toString,
    network?_self]

theorem toText_injective : Function.Injective Addr.toText := by
  intro a b h
  have hparse := congrArg parse h
  rw [parse_toText, parse_toText, Option.some.injEq] at hparse
  exact hparse

/-- The network of one address. -/
def host (ip : Nat) (hip : ip < 2 ^ 32) : Addr where
  base := ip
  len := 32
  len_le := le_rfl
  aligned := Nat.one_dvd ip
  base_lt := hip

theorem parse_addressText {ip : Nat} (hip : ip < 2 ^ 32) :
    parse (addressText ip) = some (host ip hip) := by
  unfold parse
  rw [splitText_single (slash_not_mem_addressText ip)]
  simp only [parseAddress_addressText hip, Option.bind_some]
  exact network?_self (host ip hip)

/-- What reads addresses from texts: the texts of networks, and addresses without a length, are read
back. Whatever else it reads is its own affair. -/
class AddrReader where
  readAddr : String → Option Addr
  readAddr_toText (a : Addr) : readAddr a.toText = some a
  readAddr_addressText {ip : Nat} (hip : ip < 2 ^ 32) :
    readAddr (addressText ip) = some (host ip hip)

export AddrReader (readAddr readAddr_toText readAddr_addressText)

/-- The reader of these texts and no others. -/
instance : AddrReader := ⟨parse, parse_toText, parse_addressText⟩

@[simp]
theorem readAddr_eq_parse (s : String) : readAddr s = parse s := rfl

/-- The part before the slash. -/
def beforeSlash (s : String) : String := (splitText '/' s).headD ""

theorem beforeSlash_toText (a : Addr) : beforeSlash a.toText = addressText a.base := by
  rw [beforeSlash, splitText_toText]
  rfl

theorem addressText_injOn {ip ip' : Nat} (hip : ip < 2 ^ 32) (hip' : ip' < 2 ^ 32)
    (h : addressText ip = addressText ip') : ip = ip' := by
  have hparse := congrArg parseAddress h
  rw [parseAddress_addressText hip, parseAddress_addressText hip', Option.some.injEq] at hparse
  exact hparse

/-! Texts put together again from their parts. -/

theorem splitOn_eq_cons {c : Char} {l a b : List Char} {rest : List (List Char)}
    (h : l.splitOn c = a :: b :: rest) : ∃ t, l = a ++ c :: t ∧ t.splitOn c = b :: rest := by
  induction l generalizing a with
  | nil =>
    rw [List.splitOn_nil] at h
    cases h
  | cons x l ih =>
    rw [List.splitOn_cons_eq_if_modifyHead] at h
    split at h
    · rename_i hx
      obtain ⟨rfl, hrest⟩ := List.cons.inj h
      exact ⟨l, by rw [eq_of_beq hx, List.nil_append], hrest⟩
    · cases hl : l.splitOn c with
      | nil => exact absurd hl (List.splitOn_ne_nil c l)
      | cons d ds =>
        rw [hl, List.modifyHead_cons] at h
        obtain ⟨rfl, rfl⟩ := List.cons.inj h
        obtain ⟨t, rfl, ht⟩ := ih hl
        exact ⟨t, rfl, ht⟩

theorem splitText_eq_cons {c : Char} {s a b : String} {rest : List String}
    (h : splitText c s = a :: b :: rest) :
    ∃ t, s = a ++ String.singleton c ++ t ∧ splitText c t = b :: rest := by
  unfold splitText at h
  obtain ⟨a', tail, hsplit, rfl, htail⟩ := List.map_eq_cons_iff.mp h
  obtain ⟨b', rest', rfl, rfl, rfl⟩ := List.map_eq_cons_iff.mp htail
  obtain ⟨t, hl, ht⟩ := splitOn_eq_cons hsplit
  refine ⟨String.ofList t, ?_, ?_⟩
  · apply String.toList_injective
    rw [hl, String.toList_append, String.toList_append, String.toList_ofList, String.toList_ofList,
      String.toList_singleton, List.append_assoc, List.singleton_append]
  · rw [splitText, String.toList_ofList, ht, List.map_cons]

theorem eq_of_splitText {c : Char} {s a : String} (h : splitText c s = [a]) : s = a := by
  unfold splitText at h
  obtain ⟨a', ha, rfl⟩ := List.map_eq_singleton_iff.mp h
  have hjoin : [c].intercalate (s.toList.splitOn c) = s.toList := List.intercalate_splitOn c
  rw [ha, List.intercalate_singleton] at hjoin
  rw [hjoin, String.ofList_toList]

theorem not_mem_of_parseDecimal {s : String} {n : Nat} (h : parseDecimal s = some n) {c : Char}
    (hc : c.isDigit = false) : c ∉ s.toList := by
  unfold parseDecimal at h
  split at h
  · rename_i hs
    intro hmem
    rw [List.all_eq_true.mp hs.2 c hmem] at hc
    cases hc
  · cases h

/-- The parts of the text of an address. -/
theorem parseAddress_eq_some {s : String} {ip : Nat} (h : parseAddress s = some ip) :
    ∃ w x y z : String, ∃ i j k l, splitText '.' s = [w, x, y, z] ∧
      (parseDecimal w = some i ∧ parseDecimal x = some j ∧ parseDecimal y = some k ∧
        parseDecimal z = some l) ∧ (i < 256 ∧ j < 256 ∧ k < 256 ∧ l < 256) ∧
      ip = i * 2 ^ 24 + j * 2 ^ 16 + k * 2 ^ 8 + l := by
  unfold parseAddress at h
  split at h
  · rename_i i j k l hparts
    split at h
    · rename_i hlt
      obtain ⟨w, _, hsplit, hw, hparts⟩ := List.map_eq_cons_iff.mp hparts
      obtain ⟨x, _, rfl, hx, hparts⟩ := List.map_eq_cons_iff.mp hparts
      obtain ⟨y, _, rfl, hy, hparts⟩ := List.map_eq_cons_iff.mp hparts
      obtain ⟨z, rfl, hz⟩ := List.map_eq_singleton_iff.mp hparts
      exact ⟨w, x, y, z, i, j, k, l, hsplit, ⟨hw, hx, hy, hz⟩, hlt, (Option.some.inj h).symm⟩
    · cases h
  · cases h

theorem splitText_octets {w x y z : String} {i j k : Nat} (hw : parseDecimal w = some i)
    (hx : parseDecimal x = some j) (hy : parseDecimal y = some k) (hz : '.' ∉ z.toList) :
    splitText '.' (w ++ "." ++ x ++ "." ++ y ++ "." ++ z) = [w, x, y, z] := by
  have hassoc : w ++ "." ++ x ++ "." ++ y ++ "." ++ z = w ++ String.singleton '.' ++
      (x ++ String.singleton '.' ++ (y ++ String.singleton '.' ++ z)) := by
    simp only [String.append_assoc]
    rfl
  rw [hassoc, splitText_cons (not_mem_of_parseDecimal hw (by decide)),
    splitText_cons (not_mem_of_parseDecimal hx (by decide)),
    splitText_cons (not_mem_of_parseDecimal hy (by decide)), splitText_single hz]

/-- The text of a network of length 24, cut at the dots. -/
theorem splitText_of_subnet {t : String} {a : Addr} (h : parse t = some a) (hlen : a.len = 24) :
    ∃ w x y rest : String, ∃ i j k, splitText '.' t = [w, x, y, rest] ∧
      (parseDecimal x = some j ∧ parseDecimal y = some k) ∧ (i < 256 ∧ j < 256 ∧ k < 256) ∧
      a.base = i * 2 ^ 24 + j * 2 ^ 16 + k * 2 ^ 8 := by
  unfold parse at h
  split at h
  · obtain ⟨ip, -, hnet⟩ := Option.bind_eq_some_iff.mp h
    unfold Addr.network? at hnet
    split_ifs at hnet
    cases hnet
    cases hlen
  · rename_i ipText lenText hslash
    obtain ⟨ip, hip, h⟩ := Option.bind_eq_some_iff.mp h
    obtain ⟨len, hlenText, hnet⟩ := Option.bind_eq_some_iff.mp h
    obtain ⟨w, x, y, z, i, j, k, l, hdots, ⟨hw, hx, hy, hz⟩, hlt, rfl⟩ := parseAddress_eq_some hip
    obtain ⟨_, rfl, hlenSplit⟩ := splitText_eq_cons hslash
    obtain ⟨_, rfl, hdots₁⟩ := splitText_eq_cons hdots
    obtain ⟨_, rfl, hdots₂⟩ := splitText_eq_cons hdots₁
    obtain ⟨_, rfl, hdots₃⟩ := splitText_eq_cons hdots₂
    rw [eq_of_splitText hlenSplit, eq_of_splitText hdots₃]
    refine ⟨w, x, y, z ++ "/" ++ lenText, i, j, k, ?_, ⟨hx, hy⟩, ⟨hlt.1, hlt.2.1, hlt.2.2.1⟩, ?_⟩
    · rw [← splitText_octets hw hx hy]
      · congr 1
        simp only [String.append_assoc]
        rfl
      · simp only [String.toList_append, List.mem_append, not_or]
        exact ⟨⟨not_mem_of_parseDecimal hz (by decide), by decide⟩,
          not_mem_of_parseDecimal hlenText (by decide)⟩
    · unfold Addr.network? at hnet
      split_ifs at hnet
      cases hnet
      change len = 24 at hlen
      subst hlen
      change (i * 2 ^ 24 + j * 2 ^ 16 + k * 2 ^ 8 + l) / 2 ^ 8 * 2 ^ 8 = _
      omega
  · cases h

theorem parseAddress_octets {w x y z : String} {i j k l : Nat} (hw : parseDecimal w = some i)
    (hx : parseDecimal x = some j) (hy : parseDecimal y = some k) (hz : parseDecimal z = some l)
    (hlt : i < 256 ∧ j < 256 ∧ k < 256 ∧ l < 256) :
    parseAddress (w ++ "." ++ x ++ "." ++ y ++ "." ++ z) =
      some (i * 2 ^ 24 + j * 2 ^ 16 + k * 2 ^ 8 + l) := by
  unfold parseAddress
  rw [splitText_octets hw hx hy (not_mem_of_parseDecimal hz (by decide))]
  simp only [List.map_cons, List.map_nil, hw, hx, hy, hz]
  exact if_pos hlt

/-- A text put together from an address and a length. -/
theorem parse_slash {ipText lenText : String} {ip len : Nat} (hslash : '/' ∉ ipText.toList)
    (hip : parseAddress ipText = some ip) (hlen : parseDecimal lenText = some len) :
    parse (ipText ++ "/" ++ lenText) = Addr.network? ip len := by
  have hsplit : splitText '/' (ipText ++ "/" ++ lenText) = [ipText, lenText] := by
    have hsep : ("/" : String) = String.singleton '/' := rfl
    rw [hsep, splitText_cons hslash, splitText_single (not_mem_of_parseDecimal hlen (by decide))]
  unfold parse
  rw [hsplit]
  simp only [hip, hlen, Option.bind_some]

/-- A text put together from four numbers and a length. -/
theorem parse_octets {w x y z lenText : String} {i j k l len : Nat} (hw : parseDecimal w = some i)
    (hx : parseDecimal x = some j) (hy : parseDecimal y = some k) (hz : parseDecimal z = some l)
    (hlt : i < 256 ∧ j < 256 ∧ k < 256 ∧ l < 256) (hlen : parseDecimal lenText = some len) :
    parse (w ++ "." ++ x ++ "." ++ y ++ "." ++ z ++ "/" ++ lenText) =
      Addr.network? (i * 2 ^ 24 + j * 2 ^ 16 + k * 2 ^ 8 + l) len := by
  apply parse_slash _ (parseAddress_octets hw hx hy hz hlt) hlen
  have hdot : '/' ∉ ".".toList := by decide
  simp only [String.toList_append, List.mem_append, not_or]
  exact ⟨⟨⟨⟨⟨⟨not_mem_of_parseDecimal hw (by decide), hdot⟩,
    not_mem_of_parseDecimal hx (by decide)⟩, hdot⟩,
    not_mem_of_parseDecimal hy (by decide)⟩, hdot⟩, not_mem_of_parseDecimal hz (by decide)⟩

/-- A text that ends in a slash and a length has that length, if it denotes a network at all. -/
theorem len_of_parse_slash {s lenText : String} {a : Addr} {len : Nat}
    (hlen : parseDecimal lenText = some len) (h : parse (s ++ "/" ++ lenText) = some a) :
    a.len = len := by
  have hsplit : splitText '/' (s ++ "/" ++ lenText) = splitText '/' s ++ [lenText] := by
    have hsep : ("/" : String) = String.singleton '/' := rfl
    rw [hsep]
    unfold splitText
    rw [String.toList_append, String.toList_append, String.toList_singleton, List.append_assoc,
      List.singleton_append, List.splitOn_append_cons_self, List.map_append,
      List.splitOn_eq_singleton (not_mem_of_parseDecimal hlen (by decide)), List.map_singleton,
      String.ofList_toList]
  unfold parse at h
  rw [hsplit] at h
  cases hs : splitText '/' s with
  | nil =>
    have hne : (s.toList.splitOn '/').map String.ofList ≠ [] := by
      simp only [ne_eq, List.map_eq_nil_iff, List.splitOn_ne_nil, not_false_eq_true]
    exact absurd hs hne
  | cons b rest =>
    cases rest with
    | nil =>
      rw [hs] at h
      simp only [List.singleton_append, hlen, Option.bind_some] at h
      obtain ⟨ip, -, hnet⟩ := Option.bind_eq_some_iff.mp h
      unfold Addr.network? at hnet
      split_ifs at hnet
      cases hnet
      rfl
    | cons c rest =>
      rw [hs] at h
      simp only [List.cons_append] at h
      cases rest with
      | nil => cases h
      | cons d rest => cases h

/-! Networks beside each other. -/

section
open FirstFree

theorem nextSibling_eq_some_iff {a b : Addr} : a.nextSibling = some b ↔
    b.len = a.len ∧ b.base = a.base + a.size := by
  unfold Addr.nextSibling
  constructor
  · intro h
    split_ifs at h
    cases h
    exact ⟨rfl, rfl⟩
  · rintro ⟨hlen, hbase⟩
    rw [dif_pos (hbase ▸ b.base_lt), Option.some.injEq]
    exact Addr.ext hbase.symm hlen.symm

/-- The network `n` places further on. -/
theorem follow_eq_some_iff {a b : Addr} {n : Nat} : follow Addr.nextSibling n a = some b ↔
    b.len = a.len ∧ b.base = a.base + n * a.size := by
  induction n generalizing a with
  | zero =>
    rw [follow, Option.some.injEq, Nat.zero_mul, Nat.add_zero]
    exact ⟨fun h => h ▸ ⟨rfl, rfl⟩, fun h => Addr.ext h.2.symm h.1.symm⟩
  | succ n ih =>
    have hplace : a.base + (n + 1) * a.size = a.base + a.size + n * a.size := by
      rw [Nat.succ_mul, Nat.add_assoc, Nat.add_comm (n * a.size)]
    rw [follow, Option.bind_eq_some_iff, hplace]
    constructor
    · rintro ⟨a', hnext, hrest⟩
      obtain ⟨hlen, hbase⟩ := nextSibling_eq_some_iff.mp hnext
      obtain ⟨hlen', hbase'⟩ := ih.mp hrest
      have hsize : a'.size = a.size := by rw [Addr.size, Addr.size, hlen]
      rw [hbase, hsize] at hbase'
      exact ⟨hlen'.trans hlen, hbase'⟩
    · rintro ⟨hlen, hbase⟩
      have hlt : a.base + a.size < 2 ^ 32 := by
        have hb := b.base_lt
        omega
      refine ⟨⟨a.base + a.size, a.len, a.len_le, Nat.dvd_add a.aligned (dvd_refl _), hlt⟩,
        dif_pos hlt, ih.mpr ⟨hlen, hbase⟩⟩

/-- Siblings have different texts. -/
theorem distinct_siblings (a : Addr) : Distinct Addr.nextSibling Addr.toText a := by
  intro n m b c hb hc h
  have heq := toText_injective h
  subst heq
  have hn := (follow_eq_some_iff.mp hb).2
  have hm := (follow_eq_some_iff.mp hc).2
  have hmul : n * a.size = m * a.size := by omega
  exact Nat.eq_of_mul_eq_mul_right a.size_pos hmul

end

end Ipv4
