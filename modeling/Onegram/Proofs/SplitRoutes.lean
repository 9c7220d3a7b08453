import Onegram.SplitRoutes
import Onegram.Proofs.StunCodec

/-!
# The list of split routes

The routes are those of the first 32 entries that `nw_parse_cidr` takes from the first 1023 bytes of
a list. A CIDR is read as what it says, so the routes are those of the list where nothing else is
read and no CIDR is lost to the cut.
-/

namespace Onegram.Routes

open Bytes CText Stun Turn

/-! ## The tokens and the entries -/

/-- What the loop makes of a token. -/
def parseToken (token : Bytes) : Option (InAddr × InAddr) :=
  nw_parse_cidr (token.dropWhile (· = 0x20))

theorem parseToken_nil : parseToken [] = none := rfl

theorem setRoutes_eq : ∀ (tokens : List Bytes) {routes : List SplitRoute},
    routes.length ≤ maxSplitRoutes →
      setRoutes tokens routes = routes ++
        ((tokens.filterMap parseToken).take (maxSplitRoutes - routes.length)).map toRoute
  | [], routes, _ => by simp [setRoutes]
  | token :: tokens, routes, hle => by
    rw [setRoutes, ← parseToken]
    cases hparse : parseToken token with
    | none =>
      rw [List.filterMap_cons_none hparse]
      split_ifs with hempty hfull
      · exact setRoutes_eq tokens hle
      · rw [Nat.sub_eq_zero_of_le hfull, List.take_zero, List.map_nil, List.append_nil]
      · exact setRoutes_eq tokens hle
    | some cidr =>
      obtain ⟨network, mask⟩ := cidr
      have hempty : token.dropWhile (· = 0x20) ≠ [] := by
        intro hnil
        rw [parseToken, hnil] at hparse
        cases hparse
      rw [if_neg hempty, List.filterMap_cons_some hparse]
      split_ifs with hfull
      · rw [Nat.sub_eq_zero_of_le hfull, List.take_zero, List.map_nil, List.append_nil]
      · have hroom : maxSplitRoutes - routes.length = maxSplitRoutes - (routes.length + 1) + 1 := by
          omega
        dsimp only
        rw [setRoutes_eq tokens (by rw [List.length_append, List.length_singleton]; omega),
          List.length_append, List.length_singleton, hroom, List.take_succ_cons, List.map_cons,
          List.append_assoc]
        rfl

theorem filterMap_strtok (sep : UInt8) (buf : Bytes) {f : Bytes → Option (InAddr × InAddr)}
    (hnil : f [] = none) : (strtok sep buf).filterMap f = (buf.splitOn sep).filterMap f := by
  rw [strtok, List.filterMap_filter]
  refine List.filterMap_congr fun part _ => ?_
  split_ifs with hne
  · rfl
  · obtain rfl : part = [] := by simpa using hne
    exact hnil.symm

/-! ## Blanks behind an entry -/

theorem inetAton_append_blanks (text : Bytes) {bs : Bytes} (h : ∀ c ∈ bs, c = 0x20) :
    Tcp.inetAton (text ++ bs) = Tcp.inetAton text := by
  rw [Tcp.inetAton, Tcp.inetAton, takeWhile_append_of_neg]
  intro c hc
  rw [h c hc]
  rfl

theorem mem_append_blanks (text : Bytes) {bs : Bytes} (h : ∀ c ∈ bs, c = 0x20) :
    0x2e ∈ text ++ bs ↔ 0x2e ∈ text := by
  rw [List.mem_append, or_iff_left]
  intro hmem
  exact absurd (h _ hmem) (by decide)

theorem dropWhile_append_blanks (text : Bytes) {bs : Bytes} (h : ∀ c ∈ bs, c = 0x20) :
    (text ++ bs).dropWhile (· ≠ 0x2f) =
      match text.dropWhile (· ≠ 0x2f) with
      | [] => []
      | c :: suffix => c :: (suffix ++ bs) := by
  have hbs : bs.dropWhile (· ≠ 0x2f) = [] := by
    rw [← List.append_nil bs, List.dropWhile_append_of_pos (fun c hc => by simp [h c hc])]
    rfl
  rw [List.dropWhile_append, hbs]
  cases text.dropWhile (· ≠ 0x2f) <;> rfl

theorem nw_parse_cidr_append_blanks (text : Bytes) {bs : Bytes} (h : ∀ c ∈ bs, c = 0x20) :
    nw_parse_cidr (text ++ bs) = nw_parse_cidr text := by
  have hcut : ∀ c ∈ bs.take (64 - 1 - text.length), c = 0x20 := fun c hc =>
    h c (List.mem_of_mem_take hc)
  have hspaces : ∀ c ∈ bs.take (64 - 1 - text.length), isSpace c = true := fun c hc => by
    rw [hcut c hc]
    rfl
  rw [nw_parse_cidr, nw_parse_cidr, strlcpy, strlcpy, List.take_append]
  generalize bs.take (64 - 1 - text.length) = bs' at *
  generalize text.take (64 - 1) = buf
  dsimp only
  rw [dropWhile_append_blanks buf hcut]
  cases hdrop : buf.dropWhile (· ≠ 0x2f) with
  | nil => rfl
  | cons c suffix =>
    have htake : (buf ++ bs').takeWhile (· ≠ 0x2f) = buf.takeWhile (· ≠ 0x2f) := by
      rw [List.takeWhile_append, if_neg]
      intro hlen
      have hsplit := congrArg List.length (List.takeWhile_append_dropWhile (p := (· ≠ 0x2f)) (l := buf))
      rw [hdrop, List.length_append, List.length_cons] at hsplit
      omega
    simp only [htake, mem_append_blanks suffix hcut, inetAton_append_blanks suffix hcut,
      atoi_append_spaces suffix hspaces]

theorem nw_parse_cidr_entry (part : Bytes) :
    nw_parse_cidr (entry part) = parseToken part := by
  have hsplit := List.rdropWhile_append_rtakeWhile (p := (· = 0x20))
    (l := part.dropWhile (· = 0x20))
  have hblanks : ∀ c ∈ (part.dropWhile (· = 0x20)).rtakeWhile (· = 0x20), c = 0x20 := fun c hc => by
    simpa using List.mem_rtakeWhile_imp hc
  rw [← nw_parse_cidr_append_blanks (entry part) hblanks, entry, hsplit, parseToken]

/-- The routes are those of the first entries that `nw_parse_cidr` takes. -/
theorem nw_set_split_routes_eq (list : Bytes) :
    nw_set_split_routes list =
      (((entries (list.take 1023)).filterMap nw_parse_cidr).take maxSplitRoutes).map toRoute := by
  have hentries : nw_parse_cidr ∘ entry = parseToken := funext nw_parse_cidr_entry
  rw [nw_set_split_routes, setRoutes_eq _ (Nat.zero_le _), List.nil_append, List.length_nil,
    Nat.sub_zero, filterMap_strtok 0x2c _ parseToken_nil, entries, List.filterMap_map, hentries, strlcpy]

/-! ## A CIDR is read as what it says -/

theorem decimal_spec : ∀ n < 256, (decimal n).length ≤ 3 ∧
    (decimal n).all isDigit = true ∧ Tcp.partValue (decimal n) = some n := by
  decide +kernel

theorem isDigit_of_mem_decimal {b x : UInt8} (h : x ∈ decimal b.toNat) : isDigit x = true :=
  List.all_eq_true.1 (decimal_spec b.toNat b.toNat_lt).2.1 x h

theorem inAddr_cases (a : InAddr) : ∃ w x y z, a = #v[w, x, y, z] := by
  refine ⟨a[0], a[1], a[2], a[3], ?_⟩
  ext i hi
  interval_cases i <;> rfl

theorem inetNtop_bytes (a b c d : UInt8) :
    inetNtop #v[a, b, c, d] = decimal a.toNat ++ 46 :: (decimal b.toNat ++
      46 :: (decimal c.toNat ++ 46 :: decimal d.toNat)) := by
  have hle : ∀ x : UInt8, x.toNat ≤ 255 := fun x => Nat.le_of_lt_succ x.toNat_lt
  have h := inetNtop_eq (hle a) (hle b) (hle c) (hle d)
  simpa only [UInt8.ofNat_toNat] using h

theorem mem_inetNtop {a : InAddr} {x : UInt8} (h : x ∈ inetNtop a) :
    isDigit x = true ∨ x = 46 := by
  obtain ⟨b, c, d, e, rfl⟩ := inAddr_cases a
  rw [inetNtop_bytes] at h
  simp only [List.mem_append, List.mem_cons] at h
  rcases h with h | h | h | h | h | h | h
  · exact Or.inl (isDigit_of_mem_decimal h)
  · exact Or.inr h
  · exact Or.inl (isDigit_of_mem_decimal h)
  · exact Or.inr h
  · exact Or.inl (isDigit_of_mem_decimal h)
  · exact Or.inr h
  · exact Or.inl (isDigit_of_mem_decimal h)

theorem mem_inetNtop_dot (a : InAddr) : 46 ∈ inetNtop a := by
  obtain ⟨b, c, d, e, rfl⟩ := inAddr_cases a
  rw [inetNtop_bytes]
  simp

theorem length_inetNtop_le (a : InAddr) : (inetNtop a).length ≤ 15 := by
  have hle : ∀ b : UInt8, (decimal b.toNat).length ≤ 3 := fun b =>
    (decimal_spec b.toNat b.toNat_lt).1
  obtain ⟨b, c, d, e, rfl⟩ := inAddr_cases a
  have hb := hle b
  have hc := hle c
  have hd := hle d
  have he := hle e
  rw [inetNtop_bytes]
  simp only [List.length_append, List.length_cons]
  omega

theorem splitOn_inetNtop (a b c d : UInt8) :
    (inetNtop #v[a, b, c, d]).splitOn 46 =
      [decimal a.toNat, decimal b.toNat, decimal c.toNat, decimal d.toNat] := by
  refine List.splitOn_intercalate 46 (fun l hl => ?_) (List.cons_ne_nil _ _)
  obtain ⟨b, -, rfl⟩ := List.mem_map.1 hl
  intro hmem
  have hdigit := isDigit_of_mem_decimal hmem
  cases hdigit

theorem inetAton_inetNtop (a : InAddr) : Tcp.inetAton (inetNtop a) = some a := by
  have hvalue : ∀ b : UInt8, Tcp.partValue (decimal b.toNat) = some b.toNat := fun b =>
    (decimal_spec b.toNat b.toNat_lt).2.2
  have hbyte : ∀ b : UInt8, b.toNat ≤ 0xff := fun b => Nat.le_of_lt_succ b.toNat_lt
  have hall : (inetNtop a).takeWhile (fun c => c ∉ [0, 0x09, 0x0a, 0x0b, 0x0c, 0x0d, 0x20]) =
      inetNtop a := by
    rw [List.takeWhile_eq_self_iff]
    intro x hx
    rcases mem_inetNtop hx with hdigit | rfl
    · have hlow : 48 ≤ x := by
        simp only [isDigit, Bool.and_eq_true, decide_eq_true_eq] at hdigit
        exact hdigit.1
      rw [decide_eq_true_eq]
      intro hmem
      fin_cases hmem <;> exact absurd hlow (by decide)
    · decide
  obtain ⟨b, c, d, e, rfl⟩ := inAddr_cases a
  rw [Tcp.inetAton, hall, splitOn_inetNtop]
  simp only [List.mapM_cons, List.mapM_nil, hvalue, Option.bind_eq_bind, Option.bind_some,
    Option.pure_def, Option.map_some, List.reverse_cons, List.reverse_nil, List.nil_append,
    List.cons_append]
  rw [if_pos ⟨by simp, by simp [hbyte], by simpa using e.toNat_lt⟩, Option.some_inj]
  ext i hi
  interval_cases i <;> simp [slice, bytesBE]

/-! ## Entries that are CIDRs -/

theorem bitsMask_eq : ∀ n < 33, bitsMask n = prefixMask n := by decide +kernel

theorem shortDecimal_spec : ∀ n < 33, (shortDecimal n).length ≤ 2 ∧
    (0x2e : UInt8) ∉ shortDecimal n ∧ atoi (shortDecimal n) = n := by
  decide +kernel

theorem prefixLength_some {suffix : Bytes} {n : ℕ} (h : prefixLength suffix = some n) :
    n < 33 ∧ (suffix = shortDecimal n ∨ suffix = inetNtop (prefixMask n)) := by
  have hmem := List.mem_of_find?_eq_some h
  have hform := List.find?_some h
  exact ⟨List.mem_range.1 hmem, by simpa using hform⟩

theorem nw_parse_cidr_of_valid {text : Bytes} {cidr : InAddr × InAddr}
    (h : validCidr text = some cidr) : nw_parse_cidr text = some cidr := by
  rw [validCidr] at h
  have hsplit := List.takeWhile_append_dropWhile (p := (· ≠ 0x2f)) (l := text)
  split at h
  · rename_i network c suffix hnetwork hdrop
    obtain ⟨n, hn, rfl⟩ := Option.map_eq_some_iff.1 h
    obtain ⟨hle, hsuffix⟩ := prefixLength_some hn
    have htext := inetNtop_of_inetPton hnetwork
    have hlen : text.length ≤ 63 := by
      have hnet := length_inetNtop_le network
      have hmask := length_inetNtop_le (prefixMask n)
      have hshort := (shortDecimal_spec n hle).1
      rw [← hsplit, hdrop, ← htext, List.length_append, List.length_cons]
      rcases hsuffix with rfl | rfl <;> omega
    rw [nw_parse_cidr, strlcpy, List.take_of_length_le (by omega)]
    simp only [hdrop, ← htext, inetAton_inetNtop]
    rcases hsuffix with rfl | rfl
    · obtain ⟨-, hdot, hatoi⟩ := shortDecimal_spec n hle
      rw [if_neg hdot, hatoi, if_neg (by omega), Int.toNat_natCast, bitsMask_eq n hle]
    · rw [if_pos (mem_inetNtop_dot _), inetAton_inetNtop]
      rfl
  · cases h

theorem isSome_of_valid (e : Bytes) (h : (validCidr e).isSome = true) :
    (nw_parse_cidr e).isSome = true := by
  obtain ⟨cidr, hcidr⟩ := Option.isSome_iff_exists.1 h
  rw [nw_parse_cidr_of_valid hcidr]
  rfl

theorem nw_set_split_routes_readEntries (list : Bytes) :
    nw_set_split_routes list =
      ((readEntries list).filterMap fun e => nw_parse_cidr e.1).map toRoute := by
  rw [nw_set_split_routes_eq, readEntries, Passing.filterMap_firstPassing]
  rfl

/-- Where the routes are read from the entries of the list that are CIDRs, they are theirs. -/
theorem routes_of_unaltered {list : Bytes} (h : readEntries list =
    Passing.firstPassing (fun e => (validCidr e).isSome) maxSplitRoutes (entries list)) :
    nw_set_split_routes list =
      (((entries list).filterMap validCidr).take maxSplitRoutes).map toRoute := by
  rw [nw_set_split_routes_readEntries, h, ← Passing.filterMap_firstPassing validCidr]
  refine congrArg (List.map toRoute) (List.filterMap_congr ?_)
  rintro ⟨e, i⟩ he
  obtain ⟨-, hvalid, -⟩ := Passing.mem_firstPassing.1 he
  obtain ⟨cidr, hcidr⟩ := Option.isSome_iff_exists.1 hvalid
  dsimp only
  rw [nw_parse_cidr_of_valid hcidr, hcidr]

theorem nw_set_split_routes_iff (list : Bytes) : RoutesOfList list ↔ ReadsOnlyCidrs list := by
  obtain ⟨P, c, s, S, hcut, hwhole⟩ := Passing.splitOn_take 0x2c list 1023
  have hpart : entries (list.take 1023) = P.map entry ++ [entry c] := by
    rw [entries, hcut, List.map_append]
    rfl
  have hlist : entries list = P.map entry ++ entry s :: S.map entry := by
    rw [entries, hwhole, List.map_append]
    rfl
  have hiff := Passing.firstPassing_eq_iff (P := P.map entry) (c := entry c) (s := entry s)
    (S := S.map entry) isSome_of_valid maxSplitRoutes
  rw [← hpart, ← hlist] at hiff
  constructor
  · intro h
    obtain ⟨htaken, hall⟩ := hiff.1 h.unaltered
    exact ⟨htaken, hall⟩
  · intro h
    have hsame := hiff.2 ⟨h.taken, h.whole⟩
    exact ⟨routes_of_unaltered hsame, hsame⟩

/-! ## A list that is cut within a CIDR -/

/-- `10.0.0.0/24` behind 1013 blanks. -/
def farList : Bytes :=
  List.replicate 1013 0x20 ++
    [0x31, 0x30, 0x2e, 0x30, 0x2e, 0x30, 0x2e, 0x30, 0x2f, 0x32, 0x34]

/-- The digit that is cut off leaves `10.0.0.0/2`, a quarter of all addresses. -/
theorem farList_widened : ¬RoutesOfList farList := by
  intro h
  have hroutes := h.routes
  revert hroutes
  decide +kernel

-- what follows the slash of `10.0.0.0/x` is no number, and the route takes every address
example : nw_set_split_routes [0x31, 0x30, 0x2e, 0x30, 0x2e, 0x30, 0x2e, 0x30, 0x2f, 0x78] =
    [⟨#v[10, 0, 0, 0], #v[0, 0, 0, 0], false⟩] := by
  decide +kernel

end Onegram.Routes
