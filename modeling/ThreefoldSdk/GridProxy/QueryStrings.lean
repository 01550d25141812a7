import ThreefoldSdk.GridProxy.Builders
import ThreefoldSdk.Lib.Frame

/-! What the query strings say: the parameters that are read from what `build` and
`convertObjectToQueryString` put together. -/

namespace ThreefoldSdk.GridProxy
open Frame UrlQuery

/-- The entries that are not left out. -/
def shown {κ : Type} (es : List (κ × QueryValue)) : List (κ × QueryValue) :=
  es.filter fun e => !e.2.isEmpty

/-- What the parser of a URL is given of a text. -/
def sent (t : Text) : UrlQuery.Bytes := utf8 (Utf16.scalars t)

/-- The bytes that are read as the text; nothing is read as an unpaired surrogate. -/
def written (t : Text) : Option UrlQuery.Bytes := (Utf16.decode t).map utf8

/-- The query string is read as the parameters. -/
def ReadsAs (q : Text) (ps : List (Text × Text)) : Prop :=
  (parse (sent q)).map (Prod.map some some) = ps.map (Prod.map written written)

namespace AbstractBuilder
variable {κ : Type}

/-- The parameters that the queries stand for. -/
def params (b : AbstractBuilder κ) : List (Text × Text) :=
  (shown b.queries.entries).map fun e => (literal (b.options.mapper e.1), e.2.text)

/-- The parameters of the query string are the queries. -/
def Decodes (b : AbstractBuilder κ) : Prop := ∀ q, b.query = .ok q → ReadsAs q b.params

/-- A query is refused, or every value is a text without a meaning of its own in the query string,
and the last one does not end in a blank. -/
def StandsForItself (b : AbstractBuilder κ) : Prop :=
  (∀ e ∈ shown b.queries.entries, b.options.validator e.1 e.2 = .ok ()) →
    (∀ e ∈ shown b.queries.entries, Utf16.WellFormed e.2.text ∧ Plain (sent e.2.text)) ∧
      ∀ e ∈ (shown b.queries.entries).getLast?, EndsVisibly (sent e.2.text)

end AbstractBuilder

/-- A name and its value are texts. -/
def WellFormedParam (e : Text × QueryValue) : Prop :=
  Utf16.WellFormed e.1 ∧ Utf16.WellFormed e.2.text

/-- An object with an unpaired surrogate is refused; any other one is read from its query string,
without its `undefined` and empty values. -/
structure ConvertDecodes (obj : ObjectMap Text QueryValue) : Prop where
  reads : ∀ q, convertObjectToQueryString obj = .ok q →
    ReadsAs q ((filteredParams obj).map fun e => (e.1, e.2.text))
  refused : convertObjectToQueryString obj = .error .uriError ∨
    ∃ q, convertObjectToQueryString obj = .ok q
  wellFormed : (∃ q, convertObjectToQueryString obj = .ok q) ↔
    ∀ e ∈ filteredParams obj, WellFormedParam e

/-! Texts as they are sent. -/

theorem utf8_append (cs ds : List Char) : utf8 (cs ++ ds) = utf8 cs ++ utf8 ds :=
  List.flatMap_append

theorem utf8EncodeChar_of_lt {c : Char} (h : c.toNat < 128) :
    String.utf8EncodeChar c = [UInt8.ofNat c.toNat] := by
  have hle : c.val.toNat ≤ 0x7f := Nat.le_of_lt_succ h
  exact if_pos hle

/-- An ASCII character is one byte, and parts what is before it from what is after it. -/
theorem sent_append_ascii {u : UInt16} (hu : u.toNat < 128) (s t : Text) :
    sent (s ++ u :: t) = sent s ++ UInt8.ofNat u.toNat :: sent t := by
  have hhigh : ¬Utf16.IsHigh u := fun h => by have := h.1; omega
  have hlow : ¬Utf16.IsLow u := fun h => by have := h.1; omega
  have hnat : (Utf16.single u).toNat = u.toNat := Utf16.charToNat_ofNat (.inl (by omega))
  have hone : String.utf8EncodeChar (Utf16.single u) = [UInt8.ofNat u.toNat] := by
    rw [utf8EncodeChar_of_lt (hnat.trans_lt hu), hnat]
  have hcons : utf8 (Utf16.single u :: Utf16.scalars t) = UInt8.ofNat u.toNat :: sent t := by
    rw [utf8, List.flatMap_cons, hone]
    rfl
  rw [sent, Utf16.scalars_append_single s hhigh hlow, utf8_append, hcons]
  rfl

theorem sent_cons_ascii {u : UInt16} (hu : u.toNat < 128) (t : Text) :
    sent (u :: t) = UInt8.ofNat u.toNat :: sent t := sent_append_ascii hu [] t

theorem sent_literal (s : String) : sent (literal s) = utf8 s.toList :=
  congrArg utf8 (Utf16.scalars_encode s.toList)

theorem sent_intercalate (ts : List Text) :
    sent ((literal "&").intercalate ts) = [38].intercalate (ts.map sent) := by
  have hand : literal "&" = [38] := rfl
  rw [hand]
  induction ts with
  | nil => rfl
  | cons t ts ih =>
    cases ts with
    | nil => rw [List.map_singleton, List.intercalate_singleton, List.intercalate_singleton]
    | cons t' ts =>
      have hsplit : [38].intercalate (t :: t' :: ts) = t ++ 38 :: [38].intercalate (t' :: ts) := by
        rw [List.intercalate_cons_cons, List.append_assoc, List.singleton_append]
      rw [hsplit, sent_append_ascii (by decide), ih, List.map_cons (a := t), List.map_cons,
        List.intercalate_cons_cons, List.append_assoc, List.singleton_append]
      rfl

theorem sent_pair (name value : Text) :
    sent (name ++ literal "=" ++ value) = pair (sent name, sent value) := by
  have hequals : literal "=" = [61] := rfl
  rw [hequals, List.append_assoc, List.singleton_append, sent_append_ascii (by decide)]
  rfl

theorem sent_ascii {bs : UrlQuery.Bytes} (h : ∀ b ∈ bs, b.toNat < 128) :
    sent (bs.map fun b => UInt16.ofNat b.toNat) = bs := by
  induction bs with
  | nil => rfl
  | cons b bs ih =>
    have hb : b.toNat < 128 := h b List.mem_cons_self
    have hnat : (UInt16.ofNat b.toNat).toNat = b.toNat := Utf16.toNat_ofNat (by omega)
    rw [List.map_cons, sent_cons_ascii (hnat.trans_lt hb), hnat, UInt8.ofNat_toNat,
      ih fun c hc => h c (List.mem_cons_of_mem _ hc)]

/-! Texts as they are read. -/

theorem written_of_wellFormed {t : Text} (h : Utf16.WellFormed t) : written t = some (sent t) := by
  obtain ⟨cs, rfl⟩ := h
  rw [written, Utf16.decode_encode, sent, Utf16.scalars_encode]
  rfl

theorem wellFormed_of_written {t : Text} {bs : UrlQuery.Bytes} (h : some bs = written t) :
    Utf16.WellFormed t := by
  obtain ⟨cs, hcs, -⟩ := Option.map_eq_some_iff.mp h.symm
  exact ⟨cs, Utf16.encode_of_decode hcs⟩

theorem readsAs_iff {q : Text} {ps : List (Text × Text)} (hnames : ∀ p ∈ ps, Utf16.WellFormed p.1) :
    ReadsAs q ps ↔
      parse (sent q) = ps.map (Prod.map sent sent) ∧ ∀ p ∈ ps, Utf16.WellFormed p.2 := by
  have hsome : Function.Injective (Prod.map (some : UrlQuery.Bytes → _) (some : UrlQuery.Bytes → _)) :=
    (Option.some_injective _).prodMap (Option.some_injective _)
  have hwritten : (∀ p ∈ ps, Utf16.WellFormed p.2) → ps.map (Prod.map written written) =
      (ps.map (Prod.map sent sent)).map (Prod.map some some) := by
    intro hvalues
    rw [List.map_map]
    refine List.map_congr_left fun p hp => ?_
    exact Prod.ext (written_of_wellFormed (hnames p hp)) (written_of_wellFormed (hvalues p hp))
  constructor
  · intro h
    have hvalues : ∀ p ∈ ps, Utf16.WellFormed p.2 := by
      intro p hp
      have hin : Prod.map written written p ∈ (parse (sent q)).map (Prod.map some some) :=
        h.symm ▸ List.mem_map_of_mem hp
      obtain ⟨r, -, hr⟩ := List.mem_map.mp hin
      exact wellFormed_of_written (congrArg Prod.snd hr)
    unfold ReadsAs at h
    rw [hwritten hvalues] at h
    exact ⟨List.map_injective_iff.mpr hsome h, hvalues⟩
  · rintro ⟨hparse, hvalues⟩
    unfold ReadsAs
    rw [hparse, hwritten hvalues]

/-! The encoder. -/

theorem hexDigit_lt : ∀ n < 16, (hexDigit n).toNat < 128 := by decide

/-- What is encoded. -/
theorem encodeURIComponent_cases (t : Text) :
    (¬Utf16.WellFormed t ∧ encodeURIComponent t = .error .uriError) ∨
      ∃ u, encodeURIComponent t = .ok u ∧ Utf16.WellFormed t ∧
        sent u = percentEncode uriKept (sent t) := by
  cases hdecode : Utf16.decode t with
  | none =>
    refine .inl ⟨fun h => ?_, ?_⟩
    · rw [Utf16.wellFormed_iff, hdecode] at h
      exact Bool.false_ne_true h
    · rw [encodeURIComponent, hdecode]
  | some cs =>
    refine .inr ⟨(percentEncode uriKept (utf8 cs)).map fun b => UInt16.ofNat b.toNat, ?_,
      ⟨cs, Utf16.encode_of_decode hdecode⟩, ?_⟩
    · rw [encodeURIComponent, hdecode]
    · rw [sent_ascii, sent, Utf16.scalars_of_decode hdecode]
      intro b hb
      rcases mem_percentEncode hb with hkept | rfl | ⟨n, hn, rfl⟩
      · exact (lt_of_uriKept hkept).2
      · decide
      · exact hexDigit_lt n hn

theorem uriKept_of_isWord {name : String} (h : isWord name = true) :
    ∀ b ∈ utf8 name.toList, uriKept b = true := by
  intro b hb
  obtain ⟨c, hc, hb⟩ := List.mem_flatMap.mp hb
  have hword := List.all_eq_true.mp h c hc
  have hcode : 48 ≤ c.toNat ∧ c.toNat ≤ 57 ∨ 65 ≤ c.toNat ∧ c.toNat ≤ 90 ∨
      97 ≤ c.toNat ∧ c.toNat ≤ 122 ∨ c.toNat = 95 := by
    rw [Bool.or_eq_true, decide_eq_true_eq] at hword
    rcases hword with hword | rfl
    · simp only [Char.isAlphanum, Char.isAlpha, Char.isUpper, Char.isLower, Char.isDigit,
        Bool.or_eq_true, Bool.and_eq_true, decide_eq_true_eq, ge_iff_le,
        UInt32.le_iff_toNat_le] at hword
      change ((65 ≤ c.toNat ∧ c.toNat ≤ 90) ∨ (97 ≤ c.toNat ∧ c.toNat ≤ 122)) ∨
        (48 ≤ c.toNat ∧ c.toNat ≤ 57) at hword
      omega
    · exact .inr (.inr (.inr rfl))
  rw [utf8EncodeChar_of_lt (by omega), List.mem_singleton] at hb
  have hnat : b.toNat = c.toNat := by
    rw [hb, UInt8.toNat_ofNat']
    omega
  unfold uriKept
  rw [Bool.or_eq_true, decide_eq_true_eq, decide_eq_true_eq, hnat]
  rcases hcode with hcode | hcode | hcode | hcode
  · exact .inl (.inl hcode)
  · exact .inl (.inr (.inl hcode))
  · exact .inl (.inr (.inr hcode))
  · have hline : b = 95 := UInt8.toNat_inj.mp (hnat.trans hcode)
    rw [hline]
    exact .inr (by decide)

/-! The builder. -/

namespace AbstractBuilder
variable {κ : Type} {b : AbstractBuilder κ}

/-- `name=value`. -/
def part (b : AbstractBuilder κ) (e : κ × QueryValue) : Text :=
  literal (b.options.mapper e.1) ++ literal "=" ++ e.2.text

theorem out_eq_ok_iff {es : List (κ × QueryValue)} {ss : List Text} :
    b.out es = .ok ss ↔
      (∀ e ∈ shown es, b.options.validator e.1 e.2 = .ok ()) ∧ (shown es).map b.part = ss := by
  induction es generalizing ss with
  | nil => simp [out, shown]
  | cons e es ih =>
    obtain ⟨key, value⟩ := e
    unfold out
    by_cases hempty : value.isEmpty = true
    · have hskip : shown ((key, value) :: es) = shown es := by simp [shown, hempty]
      rw [if_pos hempty, hskip, ih]
    · have hkeep : shown ((key, value) :: es) = (key, value) :: shown es := by
        simp [shown, hempty]
      rw [if_neg hempty, hkeep, exceptBind_eq_ok, List.forall_mem_cons, List.map_cons]
      constructor
      · rintro ⟨⟨⟩, hvalid, hok⟩
        obtain ⟨rest, hrest, hok⟩ := exceptBind_eq_ok.mp hok
        obtain ⟨hall, rfl⟩ := ih.mp hrest
        exact ⟨⟨hvalid, hall⟩, Except.ok.inj hok⟩
      · rintro ⟨⟨hvalid, hall⟩, rfl⟩
        exact ⟨(), hvalid, exceptBind_eq_ok.mpr ⟨_, ih.mpr ⟨hall, rfl⟩, rfl⟩⟩

theorem query_eq_ok_iff {q : Text} :
    b.query = .ok q ↔
      (∀ e ∈ shown b.queries.entries, b.options.validator e.1 e.2 = .ok ()) ∧
        (if 0 < ((shown b.queries.entries).map b.part).length then
          literal "?" ++ (literal "&").intercalate ((shown b.queries.entries).map b.part)
        else []) = q := by
  unfold query
  rw [exceptBind_eq_ok]
  constructor
  · rintro ⟨ss, hss, hok⟩
    obtain ⟨hall, rfl⟩ := out_eq_ok_iff.mp hss
    exact ⟨hall, Except.ok.inj hok⟩
  · rintro ⟨hall, hq⟩
    exact ⟨_, out_eq_ok_iff.mpr ⟨hall, rfl⟩, congrArg Except.ok hq⟩

theorem sent_parts :
    sent ((literal "&").intercalate ((shown b.queries.entries).map b.part)) =
      join (b.params.map (Prod.map sent sent)) := by
  rw [sent_intercalate, join, params, List.map_map, List.map_map, List.map_map]
  refine congrArg (List.intercalate [38]) (List.map_congr_left fun e _ => ?_)
  exact sent_pair (literal (b.options.mapper e.1)) e.2.text

/-- The `?` is there when there is something to read. -/
theorem parse_parts :
    parse (sent (if 0 < ((shown b.queries.entries).map b.part).length then
        literal "?" ++ (literal "&").intercalate ((shown b.queries.entries).map b.part) else [])) =
      parameters (clean (join (b.params.map (Prod.map sent sent)))) := by
  split_ifs with hsome
  · have hmark : literal "?" = [63] := rfl
    rw [hmark, List.singleton_append, sent_cons_ascii (by decide), sent_parts]
    exact parse_question _
  · have hnone : (shown b.queries.entries).map b.part = [] :=
      List.eq_nil_of_length_eq_zero (Nat.eq_zero_of_not_pos hsome)
    rw [← sent_parts, hnone]
    rfl

theorem name_of_mem_params :
    ∀ p ∈ b.params.map (Prod.map sent sent), Name p.1 ∧ formDecode p.1 = p.1 := by
  intro p hp
  obtain ⟨q, hq, rfl⟩ := List.mem_map.mp hp
  obtain ⟨e, -, rfl⟩ := List.mem_map.mp hq
  have hkept := uriKept_of_isWord (b.options.mapper_word e.1)
  rw [← sent_literal] at hkept
  exact uriKept_unreserved.name_of_kept hkept

theorem wellFormed_of_mem_params : ∀ p ∈ b.params, Utf16.WellFormed p.1 := by
  intro p hp
  obtain ⟨e, -, rfl⟩ := List.mem_map.mp hp
  exact Utf16.wellFormed_encode _

/-- What is read is what was meant. -/
theorem readsAs_parts_iff :
    ReadsAs (if 0 < ((shown b.queries.entries).map b.part).length then
        literal "?" ++ (literal "&").intercalate ((shown b.queries.entries).map b.part) else [])
        b.params ↔
      (∀ e ∈ shown b.queries.entries, Utf16.WellFormed e.2.text ∧ Plain (sent e.2.text)) ∧
        ∀ e ∈ (shown b.queries.entries).getLast?, EndsVisibly (sent e.2.text) := by
  have hplain : (∀ p ∈ b.params.map (Prod.map sent sent), Plain p.2) ↔
      ∀ e ∈ shown b.queries.entries, Plain (sent e.2.text) := by
    rw [List.forall_mem_map, params, List.forall_mem_map]
    rfl
  have hvalues : (∀ p ∈ b.params, Utf16.WellFormed p.2) ↔
      ∀ e ∈ shown b.queries.entries, Utf16.WellFormed e.2.text := List.forall_mem_map
  have hlast : (∀ p ∈ (b.params.map (Prod.map sent sent)).getLast?, EndsVisibly p.2) ↔
      ∀ e ∈ (shown b.queries.entries).getLast?, EndsVisibly (sent e.2.text) := by
    rw [List.getLast?_map, params, List.getLast?_map]
    cases (shown b.queries.entries).getLast? with
    | none => simp
    | some e => simp
  rw [readsAs_iff wellFormed_of_mem_params, parse_parts,
    parameters_clean_join_eq_iff name_of_mem_params, hplain, hlast, hvalues]
  constructor
  · rintro ⟨⟨hplain, hlast⟩, hvalues⟩
    exact ⟨fun e he => ⟨hvalues e he, hplain e he⟩, hlast⟩
  · rintro ⟨hall, hlast⟩
    exact ⟨⟨fun e he => (hall e he).2, hlast⟩, fun e he => (hall e he).1⟩

theorem decodes_iff : b.Decodes ↔ b.StandsForItself := by
  unfold Decodes StandsForItself
  constructor
  · intro h hvalid
    exact readsAs_parts_iff.mp (h _ (query_eq_ok_iff.mpr ⟨hvalid, rfl⟩))
  · intro h q hq
    obtain ⟨hvalid, rfl⟩ := query_eq_ok_iff.mp hq
    exact readsAs_parts_iff.mpr (h hvalid)

end AbstractBuilder

/-! The other encoder. -/

theorem encodedParam_cases (e : Text × QueryValue) :
    (¬WellFormedParam e ∧ encodedParam e = .error .uriError) ∨
      ∃ u, encodedParam e = .ok u ∧ WellFormedParam e ∧
        sent u = pair (percentEncode uriKept (sent e.1), percentEncode uriKept (sent e.2.text)) := by
  unfold encodedParam
  rcases encodeURIComponent_cases e.1 with ⟨hname, herror⟩ | ⟨name, hok, hname, hsent⟩
  · rw [herror]
    exact .inl ⟨fun h => hname h.1, rfl⟩
  · rw [hok]
    rcases encodeURIComponent_cases e.2.text with ⟨hvalue, herror⟩ | ⟨value, hok, hvalue, hsent'⟩
    · rw [herror]
      exact .inl ⟨fun h => hvalue h.2, rfl⟩
    · rw [hok]
      refine .inr ⟨_, rfl, ⟨hname, hvalue⟩, ?_⟩
      rw [sent_pair, hsent, hsent']

theorem encodedParams_cases (es : List (Text × QueryValue)) :
    ((¬∀ e ∈ es, WellFormedParam e) ∧ es.mapM encodedParam = .error .uriError) ∨
      ∃ us, es.mapM encodedParam = .ok us ∧ (∀ e ∈ es, WellFormedParam e) ∧
        us.map sent = es.map fun e =>
          pair (percentEncode uriKept (sent e.1), percentEncode uriKept (sent e.2.text)) := by
  induction es with
  | nil => exact .inr ⟨[], rfl, List.forall_mem_nil _, rfl⟩
  | cons e es ih =>
    rw [List.mapM_cons, List.forall_mem_cons]
    rcases encodedParam_cases e with ⟨hnot, herror⟩ | ⟨u, hok, hparam, hsent⟩
    · rw [herror]
      exact .inl ⟨fun h => hnot h.1, rfl⟩
    · rw [hok]
      rcases ih with ⟨hnot, herror⟩ | ⟨us, hok, hall, hrest⟩
      · rw [herror]
        exact .inl ⟨fun h => hnot h.2, rfl⟩
      · rw [hok]
        refine .inr ⟨u :: us, rfl, ⟨hparam, hall⟩, ?_⟩
        rw [List.map_cons, List.map_cons, hsent, hrest]

theorem convertDecodes (obj : ObjectMap Text QueryValue) : ConvertDecodes obj := by
  rcases encodedParams_cases (filteredParams obj) with ⟨hnot, herror⟩ | ⟨us, hok, hall, hsent⟩
  · have hthrows : convertObjectToQueryString obj = .error .uriError := by
      rw [convertObjectToQueryString, herror]
      rfl
    have hnone : ¬∃ q, convertObjectToQueryString obj = .ok q := by
      rintro ⟨q, hq⟩
      rw [hthrows] at hq
      cases hq
    exact ⟨fun q hq => absurd ⟨q, hq⟩ hnone, .inl hthrows, iff_of_false hnone hnot⟩
  · have hbuilt : convertObjectToQueryString obj = .ok ((literal "&").intercalate us) := by
      rw [convertObjectToQueryString, hok]
      rfl
    refine ⟨fun q hq => ?_, .inr ⟨_, hbuilt⟩, iff_of_true ⟨_, hbuilt⟩ hall⟩
    cases hbuilt.symm.trans hq
    have hnames : ∀ p ∈ (filteredParams obj).map fun e => (e.1, e.2.text), Utf16.WellFormed p.1 :=
      List.forall_mem_map.mpr fun e he => (hall e he).1
    refine (readsAs_iff hnames).mpr ⟨?_, List.forall_mem_map.mpr fun e he => (hall e he).2⟩
    have hjoin : sent ((literal "&").intercalate us) =
        join (((filteredParams obj).map fun e => (sent e.1, sent e.2.text)).map
          fun p => (percentEncode uriKept p.1, percentEncode uriKept p.2)) := by
      rw [sent_intercalate, hsent, join, List.map_map, List.map_map]
      rfl
    rw [hjoin, parse_join_percentEncode uriKept_unreserved, List.map_map]
    rfl

/-- A builder's query string says what was asked exactly when no value has a meaning of its own
there; one of the other encoder always does. -/
theorem build_decodes_iff {κ : Type} (b : AbstractBuilder κ) (obj : ObjectMap Text QueryValue) :
    (b.Decodes ∧ ConvertDecodes obj) ↔ b.StandsForItself := by
  rw [and_iff_left (convertDecodes obj)]
  exact b.decodes_iff

/-- A farm is looked up by its name. -/
def farmNamed (name : Text) : AbstractBuilder FarmsQuery where
  uri := "https://gridproxy.grid.tf"
  options := FarmsBuilder
  queries := ⟨[(.name, .string name)], List.nodup_singleton _⟩

/-- The name sets another filter. -/
theorem farmNamed_not_decodes :
    ¬((farmNamed (literal "a&free_ips=1")).Decodes ∧ ConvertDecodes ObjectMap.empty) := by
  rintro ⟨h, -⟩
  have hvalid : ∀ e ∈ shown (farmNamed (literal "a&free_ips=1")).queries.entries,
      FARMS_VALIDATOR e.1 e.2 = .ok () := by
    intro e he
    rw [List.mem_singleton.mp (List.mem_filter.mp he).1]
    rfl
  have hplain := (AbstractBuilder.decodes_iff.mp h hvalid).1
    (.name, .string (literal "a&free_ips=1")) (List.mem_filter.mpr ⟨List.mem_cons_self, by decide⟩)
  exact hplain.2.separate 38 (by decide) (by decide)

end ThreefoldSdk.GridProxy
