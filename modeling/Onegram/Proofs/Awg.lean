import Onegram.Awg

/-!
# Signature packets from tags

The length of the buffer is never exceeded, and every string of tags gives the bytes of the tags as
far as there is room. The sources are read in step with the tags only while there is room: once the
buffer is full what else a tag would read makes no difference. What is no string of tags still gives
a packet, unless it is empty.
-/

namespace Onegram.Awg

open Bytes CText

/-! ## Room in the buffer -/

theorem lt_toInt_iff (cap : Int32) (n : ℕ) : (n : ℤ) < cap.toInt ↔ n < cap.toNatClampNeg := by
  rw [← Int32.toNat_toInt]
  omega

theorem put_eq_take {cap : Int32} {out : Bytes} (h : out.length ≤ cap.toNatClampNeg) (b : UInt8) :
    put cap out b = (out ++ [b]).take cap.toNatClampNeg := by
  rw [put]
  split_ifs with hlt
  · rw [lt_toInt_iff] at hlt
    rw [List.take_of_length_le (by simp only [List.length_append, List.length_singleton]; omega)]
  · rw [lt_toInt_iff] at hlt
    obtain heq : out.length = cap.toNatClampNeg := by omega
    rw [← heq, List.take_left]

/-- What is cut before more is put behind it is cut all the same. -/
theorem take_append_take (n : ℕ) (xs ys : Bytes) :
    (xs.take n ++ ys).take n = (xs ++ ys).take n := by
  rcases le_total xs.length n with h | h
  · rw [List.take_of_length_le h]
  · rw [List.take_append_of_le_length h, List.take_append_of_le_length (by simp [h]),
      List.take_take, min_self]

theorem foldl_put {cap : Int32} : ∀ (bs : Bytes) {out : Bytes},
    out.length ≤ cap.toNatClampNeg →
      bs.foldl (put cap) out = (out ++ bs).take cap.toNatClampNeg
  | [], out, h => by rw [List.foldl_nil, List.append_nil, List.take_of_length_le h]
  | b :: bs, out, h => by
    have hput := put_eq_take h b
    have hle : (put cap out b).length ≤ cap.toNatClampNeg := by
      rw [hput]
      exact List.length_take_le _ _
    rw [List.foldl_cons, foldl_put bs hle, hput, take_append_take, List.append_assoc,
      List.singleton_append]

/-! ## Every text stays within the buffer -/

theorem put_length_le {cap : Int32} {out : Bytes} (h : out.length ≤ cap.toNatClampNeg)
    (b : UInt8) : (put cap out b).length ≤ cap.toNatClampNeg := by
  rw [put_eq_take h]
  exact List.length_take_le _ _

theorem putWord_length_le {cap : Int32} {out : Bytes} (h : out.length ≤ cap.toNatClampNeg)
    (v : UInt32) : (putWord cap out v).length ≤ cap.toNatClampNeg := by
  rw [putWord, foldl_put _ h]
  exact List.length_take_le _ _

theorem hexDigits_out_length_le {cap : Int32} (p out : Bytes)
    (h : out.length ≤ cap.toNatClampNeg) :
    (hexDigits cap p out).2.length ≤ cap.toNatClampNeg := by
  fun_induction hexDigits cap p out with
  | case1 out => exact h
  | case2 p out => exact h
  | case3 c p out hc hx ih => exact ih h
  | case4 c out => exact h
  | case5 c out hc hi hx d p' hy => exact h
  | case6 c out hc hi hx d p' lo hy ih => exact ih (put_length_le h _)

theorem fill_random_length_le (env : AwgEnv) (i n : ℕ) :
    ((fill_random env i n).getD []).length ≤ n := by
  rw [fill_random]
  split_ifs <;> simp

theorem buildTag_out_length_le (env : AwgEnv) {cap : Int32} (kind : UInt8) (p : Bytes)
    {s : BuildState} (h : s.out.length ≤ cap.toNatClampNeg) :
    (buildTag env cap kind p s).2.out.length ≤ cap.toNatClampNeg := by
  unfold buildTag
  split_ifs
  · exact hexDigits_out_length_le _ _ h
  · dsimp only
    generalize (if atoi p < 0 then 0 else atoi p) = n
    obtain ⟨m, hm⟩ : ∃ m, m = if n > cap.toInt - s.out.length then cap.toInt - s.out.length
      else n := ⟨_, rfl⟩
    have hroom : m ≤ cap.toInt - s.out.length := by
      rw [hm]
      split_ifs <;> omega
    rw [← hm]
    split_ifs with hpos
    · have hfill := fill_random_length_le env s.sources.randoms m.toNat
      rw [← Int32.toNat_toInt]
      simp only [List.length_append]
      omega
    · exact h
  · exact putWord_length_le h _
  · exact putWord_length_le h _
  · exact h

theorem buildLoop_out_length_le (env : AwgEnv) {cap : Int32} (p : Bytes) (s : BuildState)
    (h : s.out.length ≤ cap.toNatClampNeg) :
    (buildLoop env cap p s).out.length ≤ cap.toNatClampNeg := by
  fun_induction buildLoop env cap p s with
  | case1 s => exact h
  | case2 s c p hc ih => exact ih h
  | case3 s c p hc hblank => exact h
  | case4 s c p hc kind q hq r ih => exact ih (buildTag_out_length_le env _ _ h)

/-! ## One tag -/

theorem skipBlanks_blanks (n : ℕ) {xs : Bytes} (h : xs.head? ≠ some 0x20) :
    skipBlanks (blanks n ++ xs) = xs := by
  rw [skipBlanks, blanks, List.dropWhile_append_of_pos (by simp)]
  cases xs with
  | nil => rfl
  | cons x xs =>
    rw [List.dropWhile_cons_of_neg]
    simpa using h

theorem toTagEnd_cons (text : Bytes) : toTagEnd (0x3e :: text) = 0x3e :: text := by
  rw [toTagEnd, List.dropWhile_cons_of_neg (by simp)]

theorem toTagEnd_blanks (n : ℕ) (text : Bytes) :
    toTagEnd (blanks n ++ 0x3e :: text) = 0x3e :: text := by
  rw [toTagEnd]
  refine dropWhile_append_cons (fun c hc => ?_) (by simp) text
  rw [List.eq_of_mem_replicate hc]
  rfl

theorem hexval_ne {c x : UInt8} (h : hexval c = some x) :
    c ≠ 0x20 ∧ c ≠ 0x3e ∧ c ≠ 0x78 ∧ c ≠ 0x58 := by
  refine ⟨?_, ?_, ?_, ?_⟩ <;> rintro rfl <;> cases h

theorem hexDigits_blanks (cap : Int32) (text out : Bytes) : ∀ k : ℕ,
    hexDigits cap (blanks k ++ 0x3e :: text) out = (0x3e :: text, out)
  | 0 => by
    rw [blanks, List.replicate_zero, List.nil_append, hexDigits, if_pos rfl]
  | k + 1 => by
    rw [blanks, List.replicate_succ, List.cons_append, hexDigits, if_neg (by decide)]
    exact hexDigits_blanks cap text out k

theorem hexDigits_hexText {cap : Int32} {digits bs : Bytes} (h : HexText digits bs) (k : ℕ)
    (text : Bytes) {out : Bytes} (hout : out.length ≤ cap.toNatClampNeg) :
    hexDigits cap (digits ++ (blanks k ++ 0x3e :: text)) out =
      (0x3e :: text, (out ++ bs).take cap.toNatClampNeg) := by
  induction h generalizing out with
  | nil => rw [List.nil_append, hexDigits_blanks, List.append_nil, List.take_of_length_le hout]
  | pair ha hb h ih =>
    rw [List.cons_append, List.cons_append, hexDigits.eq_def]
    simp only [ha, hb, if_neg (hexval_ne ha).2.1]
    rw [ih (put_length_le hout _), put_eq_take hout, take_append_take, List.append_assoc,
      List.singleton_append]

theorem skipPrefix_hexText {pre digits bs : Bytes}
    (hpre : pre = [] ∨ pre = [0x30, 0x78] ∨ pre = [0x30, 0x58]) (h : HexText digits bs)
    (hne : bs ≠ []) (rest : Bytes) :
    skipPrefix (pre ++ digits ++ rest) = digits ++ rest := by
  obtain rfl | rfl | rfl := hpre
  · cases h with
    | nil => exact absurd rfl hne
    | @pair a b x y text bs ha hb h =>
      rw [List.nil_append, List.cons_append, List.cons_append, skipPrefix.eq_def]
      split
      · rename_i heq
        obtain ⟨ha0, heq⟩ := List.cons.inj heq
        obtain ⟨rfl, rfl⟩ := List.cons.inj heq
        rw [if_neg (by simp [hexval_ne hb]), ha0]
      · rfl
  · rfl
  · rfl

/-- What stands in a tag does not begin with a blank. -/
theorem TagBody.head_ne {kind : UInt8} {body : Bytes} {tag : Tag} (h : TagBody kind body tag) :
    body.head? ≠ some 0x20 := by
  cases h with
  | literal hkind hpre h hne =>
    obtain rfl | rfl | rfl := hpre
    · cases h with
      | nil => simp
      | pair ha hb h => simpa using (hexval_ne ha).1
    · simp
    · simp
  | random hkind h hne =>
    intro hhead
    have hdigit := h _ (List.mem_of_mem_head? hhead)
    simp [isDigit] at hdigit
  | counter hkind => simp
  | timestamp hkind => simp

theorem TagBody.kind_ne {kind : UInt8} {body : Bytes} {tag : Tag} (h : TagBody kind body tag) :
    kind ≠ 0x20 := by
  cases h with
  | literal hkind | random hkind | counter hkind | timestamp hkind =>
    rintro rfl
    revert hkind
    decide

/-- Before the blanks behind the body those before it are skipped, all of them if it is empty. -/
theorem TagBody.skipBlanks_eq {kind : UInt8} {body : Bytes} {tag : Tag}
    (h : TagBody kind body tag) (j k : ℕ) (text : Bytes) :
    ∃ k', skipBlanks (blanks j ++ (body ++ (blanks k ++ 0x3e :: text))) =
      body ++ (blanks k' ++ 0x3e :: text) := by
  have hhead := h.head_ne
  cases body with
  | nil =>
    refine ⟨0, ?_⟩
    rw [List.nil_append, ← List.append_assoc, blanks, blanks, List.replicate_append_replicate]
    exact skipBlanks_blanks _ (by simp)
  | cons c body => exact ⟨k, skipBlanks_blanks _ (by simpa using hhead)⟩

theorem blanks_end (k : ℕ) (text : Bytes) :
    ∃ y ys, blanks k ++ 0x3e :: text = y :: ys ∧ isDigit y = false := by
  cases k with
  | zero => exact ⟨_, _, rfl, by decide⟩
  | succ k => exact ⟨_, _, rfl, by decide⟩

theorem toTagEnd_digits {ds : Bytes} (h : ∀ c ∈ ds, isDigit c = true) (k : ℕ) (text : Bytes) :
    toTagEnd (ds ++ (blanks k ++ 0x3e :: text)) = 0x3e :: text := by
  rw [toTagEnd, List.dropWhile_append_of_pos]
  · exact toTagEnd_blanks k text
  · intro c hc
    have hdigit := h c hc
    rw [decide_eq_true_eq]
    rintro rfl
    simp [isDigit] at hdigit

theorem map_range_take (f : ℕ → UInt8) (n : ℕ) (out : Bytes) {c : ℕ} (h : out.length ≤ c) :
    (out ++ (List.range n).map f).take c =
      out ++ (List.range (min (c - out.length) n)).map f := by
  rw [List.take_append, List.take_of_length_le h, ← List.map_take, List.take_range]

/-- What `buildTag` does to a state that has room for what it has: the end of the tag is next, the
bytes of the tag are behind the others as far as there is room, and with room left over the sources
are those after the tag. -/
structure Builds (env : AwgEnv) (cap : Int32) (tag : Tag) (text : Bytes) (s : BuildState)
    (r : Bytes × BuildState) : Prop where
  ends : toTagEnd r.1 = 0x3e :: text
  out : r.2.out = (s.out ++ tag.bytes env s.sources).take cap.toNatClampNeg
  sources : r.2.out.length < cap.toNatClampNeg → r.2.sources = tag.read s.sources

theorem buildTag_literal (env : AwgEnv) {cap : Int32} {kind : UInt8} {pre digits bs : Bytes}
    (hkind : kind = 0x62 ∨ kind = 0x42)
    (hpre : pre = [] ∨ pre = [0x30, 0x78] ∨ pre = [0x30, 0x58]) (h : HexText digits bs)
    (hne : bs ≠ []) (k : ℕ) (text : Bytes) {s : BuildState}
    (hout : s.out.length ≤ cap.toNatClampNeg) :
    Builds env cap (.literal bs) text s
      (buildTag env cap kind (pre ++ digits ++ (blanks k ++ 0x3e :: text)) s) := by
  rw [buildTag, if_pos hkind, skipPrefix_hexText hpre h hne, hexDigits_hexText h k text hout]
  exact ⟨toTagEnd_cons text, rfl, fun _ => rfl⟩

theorem buildTag_random {env : AwgEnv} (hdelivers : ∀ i, env.delivers i = true) {cap : Int32}
    {kind : UInt8} {ds : Bytes} (hkind : kind = 0x72 ∨ kind = 0x52)
    (h : ∀ c ∈ ds, isDigit c = true) (hne : ds ≠ []) (k : ℕ) (text : Bytes) {s : BuildState}
    (hout : s.out.length ≤ cap.toNatClampNeg) :
    Builds env cap (.random (decimalValue ds)) text s
      (buildTag env cap kind (ds ++ (blanks k ++ 0x3e :: text)) s) := by
  have hb : ¬(kind = 0x62 ∨ kind = 0x42) := by
    rcases hkind with rfl | rfl <;> decide
  have hend := toTagEnd_digits h k text
  obtain ⟨y, ys, hys, hy⟩ := blanks_end k text
  have hnum := atoi_digits hne h hy ys
  rw [← hys] at hnum
  rw [buildTag, if_neg hb, if_pos hkind, hnum, hend]
  have hcap := cap.toNatClampNeg_lt
  have hroom := Int32.toNat_toInt cap
  generalize decimalValue ds = n
  have htake := map_range_take (env.urandom s.sources.randoms) n s.out hout
  dsimp only
  rw [if_neg (by omega : ¬min (2 ^ 31 - 1) (n : ℤ) < 0)]
  obtain ⟨m, hm⟩ : ∃ m, m = if min (2 ^ 31 - 1) (n : ℤ) > cap.toInt - s.out.length then
    cap.toInt - s.out.length else min (2 ^ 31 - 1) (n : ℤ) := ⟨_, rfl⟩
  rw [← hm]
  split_ifs with hpos
  · have hmin : m.toNat = min (cap.toNatClampNeg - s.out.length) n := by
      split_ifs at hm <;> omega
    refine ⟨toTagEnd_cons text, ?_, fun _ => ?_⟩
    · dsimp only
      rw [fill_random, if_pos (hdelivers _), hmin, Tag.bytes, htake]
      rfl
    · rw [Tag.read, if_neg (by omega)]
  · have hnone : min (cap.toNatClampNeg - s.out.length) n = 0 := by
      split_ifs at hm <;> omega
    refine ⟨toTagEnd_cons text, ?_, fun hlt => ?_⟩
    · rw [Tag.bytes, htake, hnone, List.range_zero, List.map_nil, List.append_nil]
    · rw [Tag.read, if_pos]
      dsimp only at hlt
      omega

theorem buildTag_tagBody {env : AwgEnv} (hdelivers : ∀ i, env.delivers i = true) {cap : Int32}
    {kind : UInt8} {body : Bytes} {tag : Tag} (h : TagBody kind body tag) (k : ℕ) (text : Bytes)
    {s : BuildState} (hout : s.out.length ≤ cap.toNatClampNeg) :
    Builds env cap tag text s
      (buildTag env cap kind (body ++ (blanks k ++ 0x3e :: text)) s) := by
  cases h with
  | literal hkind hpre h hne => exact buildTag_literal env hkind hpre h hne k text hout
  | random hkind h hne => exact buildTag_random hdelivers hkind h hne k text hout
  | counter hkind =>
    refine ⟨?_, ?_, fun _ => ?_⟩ <;> rcases hkind with rfl | rfl
    · exact toTagEnd_blanks k text
    · exact toTagEnd_blanks k text
    · exact foldl_put _ hout
    · exact foldl_put _ hout
    · rfl
    · rfl
  | timestamp hkind =>
    refine ⟨?_, ?_, fun _ => ?_⟩ <;> rcases hkind with rfl | rfl
    · exact toTagEnd_blanks k text
    · exact toTagEnd_blanks k text
    · exact foldl_put _ hout
    · exact foldl_put _ hout
    · rfl
    · rfl

/-! ## A string of tags -/

theorem buildLoop_space (env : AwgEnv) (cap : Int32) {c : UInt8} (hc : isSpace c = true)
    (text : Bytes) (s : BuildState) :
    buildLoop env cap (c :: text) s = buildLoop env cap text s := by
  rw [buildLoop, if_pos]
  rintro rfl
  simp [isSpace] at hc

theorem buildLoop_tag {env : AwgEnv} {cap : Int32} {kind : UInt8} {q p : Bytes}
    (hskip : skipBlanks p = kind :: q) (s : BuildState) :
    buildLoop env cap (0x3c :: p) s =
      buildLoop env cap ((toTagEnd (buildTag env cap kind (skipBlanks q) s).1).drop 1)
        (buildTag env cap kind (skipBlanks q) s).2 := by
  rw [buildLoop, if_neg (by simp)]
  split
  · rename_i hnil
    rw [hskip] at hnil
    cases hnil
  · rename_i kind' q' hcons
    rw [hskip] at hcons
    obtain ⟨rfl, rfl⟩ := List.cons.inj hcons
    rfl

theorem buildLoop_template {env : AwgEnv} (hdelivers : ∀ i, env.delivers i = true) {cap : Int32}
    {text : Bytes} {tags : List Tag} (h : Template text tags) :
    ∀ s : BuildState, s.out.length ≤ cap.toNatClampNeg →
      (buildLoop env cap text s).out =
        (s.out ++ packetBytes env s.sources tags).take cap.toNatClampNeg := by
  induction h with
  | done =>
    intro s hs
    rw [buildLoop, packetBytes, List.append_nil, List.take_of_length_le hs]
  | space hc h ih =>
    intro s hs
    rw [buildLoop_space env cap hc]
    exact ih s hs
  | @tag kind body text tag tags i j k hbody h ih =>
    intro s hs
    have hkind : skipBlanks (blanks i ++ kind ::
        (blanks j ++ (body ++ (blanks k ++ 0x3e :: text)))) =
          kind :: (blanks j ++ (body ++ (blanks k ++ 0x3e :: text))) :=
      skipBlanks_blanks i (by simpa using hbody.kind_ne)
    obtain ⟨k', hk'⟩ := hbody.skipBlanks_eq j k text
    have hle := buildTag_out_length_le env kind (body ++ (blanks k' ++ 0x3e :: text)) hs
    have hb := buildTag_tagBody hdelivers hbody k' text hs
    rw [buildLoop_tag hkind, hk', hb.ends, List.drop_one, List.tail_cons, ih _ hle, packetBytes,
      ← List.append_assoc s.out]
    rcases hle.lt_or_eq with hlt | heq
    · rw [hb.sources hlt, hb.out, take_append_take]
    · -- the buffer is full, and nothing behind it counts
      have hfull : cap.toNatClampNeg ≤ (s.out ++ tag.bytes env s.sources).length := by
        rw [hb.out, List.length_take] at heq
        omega
      rw [List.take_append_of_le_length heq.ge, List.take_append_of_le_length hfull, hb.out,
        List.take_take, min_self]

/-! ## The contract -/

theorem nw_awg_build_packet_cons (env : AwgEnv) (s : AwgSources) (c : UInt8) (text : Bytes)
    (cap : Int32) :
    (nw_awg_build_packet env s (some (c :: text)) cap).1 =
      some (buildLoop env cap (c :: text) { out := [], sources := s }).out := rfl

/-- Only what is empty is refused. -/
theorem nw_awg_build_packet_eq_none_iff (env : AwgEnv) (s : AwgSources) (tags : Option Bytes)
    (cap : Int32) :
    (nw_awg_build_packet env s tags cap).1 = none ↔ tags = none ∨ tags = some [] := by
  rcases tags with _ | _ | ⟨c, text⟩
  · simp [nw_awg_build_packet]
  · simp [nw_awg_build_packet]
  · simp [nw_awg_build_packet_cons]

/-- The contract is kept for a `NULL`, and for the strings of tags and no others. -/
theorem nw_awg_build_packet_contract_iff (env : AwgEnv) (hdelivers : ∀ i, env.delivers i = true)
    (s : AwgSources) (tags : Option Bytes) (cap : Int32) :
    BuildContract env s tags cap ↔
      tags = none ∨ ∃ text l, tags = some text ∧ Template text l := by
  constructor
  · intro h
    by_cases htags : ∃ text l, tags = some text ∧ text ≠ [] ∧ Template text l
    · obtain ⟨text, l, htext, -, htemplate⟩ := htags
      exact Or.inr ⟨text, l, htext, htemplate⟩
    · obtain hnone | hnil := (nw_awg_build_packet_eq_none_iff env s tags cap).1 (h.malformed htags)
      · exact Or.inl hnone
      · exact Or.inr ⟨[], [], hnil, .done⟩
  · intro h
    refine ⟨?_, fun hmal => ?_, ?_⟩
    · rcases tags with _ | _ | ⟨c, text⟩
      · rintro out ⟨⟩
      · rintro out ⟨⟩
      · rintro out ⟨⟩
        exact buildLoop_out_length_le env (c :: text) _ (Nat.zero_le _)
    · rw [nw_awg_build_packet_eq_none_iff]
      obtain hnone | ⟨text, l, rfl, htemplate⟩ := h
      · exact Or.inl hnone
      · by_contra hne
        simp only [reduceCtorEq, Option.some.injEq, false_or] at hne
        exact hmal ⟨text, l, rfl, hne, htemplate⟩
    · rintro text l rfl hne htemplate
      obtain ⟨c, text, rfl⟩ := List.exists_cons_of_ne_nil hne
      rw [nw_awg_build_packet_cons, buildLoop_template hdelivers htemplate _ (Nat.zero_le _),
        List.nil_append]

/-! ## A packet and a tag without an end -/

theorem Template.mem_end {text : Bytes} {tags : List Tag} (h : Template text tags)
    (hmem : (0x3c : UInt8) ∈ text) : (0x3e : UInt8) ∈ text := by
  induction h with
  | done => exact absurd hmem List.not_mem_nil
  | @space c text tags hc h ih =>
    rcases List.mem_cons.1 hmem with rfl | hmem
    · simp [isSpace] at hc
    · exact List.mem_cons_of_mem c (ih hmem)
  | tag i j k hbody h ih => simp

/-- Bytes as their places in each reading, and a clock that stands still. -/
def stillEnv : AwgEnv where
  urandom _ j := UInt8.ofNat j
  delivers _ := true
  time _ := 0x12345678

def freshSources : AwgSources where
  counter := 0
  randoms := 0
  times := 0

/-- `<r 3>` -/
theorem random_tag_contract :
    BuildContract stillEnv freshSources (some [0x3c, 0x72, 0x20, 0x33, 0x3e]) 4096 := by
  have hbody : TagBody 0x72 [0x33] (.random 3) :=
    .random (Or.inl rfl) (List.forall_mem_singleton.2 rfl) (List.cons_ne_nil _ _)
  exact (nw_awg_build_packet_contract_iff stillEnv (fun _ => rfl) freshSources _ 4096).2
    (Or.inr ⟨_, _, rfl, .tag 0 1 0 hbody .done⟩)

/-- `<c` has no end, and the four bytes of the counter come back instead of -1. -/
theorem unterminated_tag_built :
    ¬BuildContract stillEnv freshSources (some [0x3c, 0x63]) 4096 := by
  intro h
  have hnone := h.malformed ?_
  · cases hnone
  · rintro ⟨text, l, htext, -, htemplate⟩
    cases htext
    exact absurd (htemplate.mem_end (by decide)) (by decide)

end Onegram.Awg
