import Onegram.Lib.CText

/-!
# Signature packets from tags

`nw_awg_build_packet` of `awg.c`: the bytes that a string of tags stands for, written into a buffer
of `cap` bytes. `/dev/urandom`, the clock and the counter, which lives as long as the process, are
read through `AwgSources`. Below it the tags as `awg.h` lists them.
-/

namespace Onegram.Awg

open Bytes CText

/-- What the tags read from outside: the bytes of the `i`-th opening of `/dev/urandom`, whether it
gives as many as asked for, and what the `i`-th call of `time` returns. -/
structure AwgEnv where
  urandom : ℕ → ℕ → UInt8
  delivers : ℕ → Bool
  time : ℕ → UInt32

/-- The counter, the openings of `/dev/urandom` and the calls of `time` so far. -/
structure AwgSources where
  counter : UInt32
  randoms : ℕ
  times : ℕ

/-- `out[0..len)` and the sources. -/
structure BuildState where
  out : Bytes
  sources : AwgSources

def hexval (c : UInt8) : Option UInt8 :=
  if 0x30 ≤ c ∧ c ≤ 0x39 then some (c - 0x30)
  else if 0x61 ≤ c ∧ c ≤ 0x66 then some (c - 0x61 + 10)
  else if 0x41 ≤ c ∧ c ≤ 0x46 then some (c - 0x41 + 10)
  else none

/-- `if (len < cap) out[len++] = b`. -/
def put (cap : Int32) (out : Bytes) (b : UInt8) : Bytes :=
  if (out.length : ℤ) < cap.toInt then out ++ [b] else out

def putWord (cap : Int32) (out : Bytes) (v : UInt32) : Bytes :=
  (bytesLE 4 v.toNat).foldl (put cap) out

def fill_random (env : AwgEnv) (i n : ℕ) : Option Bytes :=
  if env.delivers i then some ((List.range n).map (env.urandom i)) else none

/-- `while (*p && *p != '>') p++`. -/
def toTagEnd (p : Bytes) : Bytes := p.dropWhile (· ≠ 0x3e)

def skipBlanks (p : Bytes) : Bytes := p.dropWhile (· = 0x20)

def skipPrefix : Bytes → Bytes
  | 0x30 :: c :: p => if c = 0x78 ∨ c = 0x58 then p else 0x30 :: c :: p
  | p => p

/-- The loop over the digits of a `b` tag: where it stops, and what has been written. -/
def hexDigits (cap : Int32) : Bytes → Bytes → Bytes × Bytes
  | [], out => ([], out)
  | c :: p, out =>
    if c = 0x3e then (c :: p, out)
    else
      match hexval c with
      | none => hexDigits cap p out
      | some hi =>
        match p with
        | [] => ([], out)
        | d :: p' =>
          match hexval d with
          | none => (d :: p', out)
          | some lo => hexDigits cap p' (put cap out (hi <<< 4 ||| lo))

/-- The branches over the kind of a tag: where they leave the text, and the state. -/
def buildTag (env : AwgEnv) (cap : Int32) (kind : UInt8) (p : Bytes) (s : BuildState) :
    Bytes × BuildState :=
  if kind = 0x62 ∨ kind = 0x42 then
    let r := hexDigits cap (skipPrefix p) s.out
    (r.1, { s with out := r.2 })
  else if kind = 0x72 ∨ kind = 0x52 then
    let n := atoi p
    let n := if n < 0 then 0 else n
    let n := if n > cap.toInt - s.out.length then cap.toInt - s.out.length else n
    if n > 0 then
      (toTagEnd p, { out := s.out ++ (fill_random env s.sources.randoms n.toNat).getD []
                     sources := { s.sources with randoms := s.sources.randoms + 1 } })
    else (toTagEnd p, s)
  else if kind = 0x63 ∨ kind = 0x43 then
    (p, { out := putWord cap s.out s.sources.counter
          sources := { s.sources with counter := s.sources.counter + 1 } })
  else if kind = 0x74 ∨ kind = 0x54 then
    (p, { out := putWord cap s.out (env.time s.sources.times)
          sources := { s.sources with times := s.sources.times + 1 } })
  else (p, s)

theorem hexDigits_length_le (cap : Int32) (p out : Bytes) :
    (hexDigits cap p out).1.length ≤ p.length := by
  fun_induction hexDigits cap p out <;> simp only [List.length_cons] at * <;> omega

theorem skipPrefix_length_le (p : Bytes) : (skipPrefix p).length ≤ p.length := by
  unfold skipPrefix
  split
  · split <;> simp only [List.length_cons] <;> omega
  · exact le_rfl

theorem buildTag_length_le (env : AwgEnv) (cap : Int32) (kind : UInt8) (p : Bytes)
    (s : BuildState) : (buildTag env cap kind p s).1.length ≤ p.length := by
  have hend : (toTagEnd p).length ≤ p.length := length_dropWhile_le _ _
  unfold buildTag
  split_ifs
  · exact (hexDigits_length_le cap _ s.out).trans (skipPrefix_length_le p)
  · dsimp only
    split_ifs <;> exact hend
  all_goals exact le_rfl

/-- The loop over the tags, from `p` on. -/
def buildLoop (env : AwgEnv) (cap : Int32) : Bytes → BuildState → BuildState
  | [], s => s
  | c :: p, s =>
    if c ≠ 0x3c then buildLoop env cap p s
    else
      match _hkind : skipBlanks p with
      | [] => s
      | kind :: q =>
        let r := buildTag env cap kind (skipBlanks q) s
        buildLoop env cap ((toTagEnd r.1).drop 1) r.2
termination_by p => p.length
decreasing_by
  · simp
  · have hp : (skipBlanks p).length ≤ p.length := length_dropWhile_le _ _
    have hq : (skipBlanks q).length ≤ q.length := length_dropWhile_le _ _
    have ht := buildTag_length_le env cap kind (skipBlanks q) s
    have he : (toTagEnd (buildTag env cap kind (skipBlanks q) s).1).length ≤ _ :=
      length_dropWhile_le _ _
    rw [_hkind, List.length_cons] at hp
    simp only [List.length_drop, List.length_cons]
    omega

/-- `none` is the result -1; `tags` is `none` where the argument is `NULL`. -/
def nw_awg_build_packet (env : AwgEnv) (s : AwgSources) (tags : Option Bytes) (cap : Int32) :
    Option Bytes × AwgSources :=
  match tags with
  | none | some [] => (none, s)
  | some text =>
    let r := buildLoop env cap text { out := [], sources := s }
    (some r.out, r.sources)

/-! ## The tags -/

inductive Tag
  | literal (bs : Bytes)
  | random (n : ℕ)
  | counter
  | timestamp

/-- Pairs of hexadecimal digits and the bytes they write. -/
inductive HexText : Bytes → Bytes → Prop
  | nil : HexText [] []
  | pair {a b x y : UInt8} {text bs : Bytes} (ha : hexval a = some x) (hb : hexval b = some y)
      (h : HexText text bs) : HexText (a :: b :: text) ((x <<< 4 ||| y) :: bs)

/-- What stands between the kind of a tag and its end. -/
inductive TagBody : UInt8 → Bytes → Tag → Prop
  | literal {kind : UInt8} {pre text bs : Bytes} (hkind : kind = 0x62 ∨ kind = 0x42)
      (hpre : pre = [] ∨ pre = [0x30, 0x78] ∨ pre = [0x30, 0x58]) (h : HexText text bs)
      (hne : bs ≠ []) : TagBody kind (pre ++ text) (.literal bs)
  | random {kind : UInt8} {ds : Bytes} (hkind : kind = 0x72 ∨ kind = 0x52)
      (h : ∀ c ∈ ds, isDigit c = true) (hne : ds ≠ []) :
      TagBody kind ds (.random (decimalValue ds))
  | counter {kind : UInt8} (hkind : kind = 0x63 ∨ kind = 0x43) : TagBody kind [] .counter
  | timestamp {kind : UInt8} (hkind : kind = 0x74 ∨ kind = 0x54) : TagBody kind [] .timestamp

def blanks (n : ℕ) : Bytes := List.replicate n 0x20

/-- Tags with white space before, between and behind them. -/
inductive Template : Bytes → List Tag → Prop
  | done : Template [] []
  | space {c : UInt8} {text : Bytes} {tags : List Tag} (hc : isSpace c = true)
      (h : Template text tags) : Template (c :: text) tags
  | tag {kind : UInt8} {body text : Bytes} {tag : Tag} {tags : List Tag} (i j k : ℕ)
      (hbody : TagBody kind body tag) (h : Template text tags) :
      Template (0x3c :: (blanks i ++ kind :: (blanks j ++ (body ++ (blanks k ++ 0x3e :: text)))))
        (tag :: tags)

namespace Tag

/-- The bytes of a tag where the sources stand at `s`. -/
def bytes (env : AwgEnv) (s : AwgSources) : Tag → Bytes
  | .literal bs => bs
  | .random n => (List.range n).map (env.urandom s.randoms)
  | .counter => bytesLE 4 s.counter.toNat
  | .timestamp => bytesLE 4 (env.time s.times).toNat

/-- The sources after a tag. -/
def read (s : AwgSources) : Tag → AwgSources
  | .literal _ => s
  | .random n => if n = 0 then s else { s with randoms := s.randoms + 1 }
  | .counter => { s with counter := s.counter + 1 }
  | .timestamp => { s with times := s.times + 1 }

end Tag

/-- The bytes of the tags, each read after those before it. -/
def packetBytes (env : AwgEnv) : AwgSources → List Tag → Bytes
  | _, [] => []
  | s, tag :: tags => tag.bytes env s ++ packetBytes env (tag.read s) tags

/-- What `awg.h` says of a call: at most `cap` bytes, -1 for what is empty or no string of tags, and
the bytes of the tags otherwise. -/
structure BuildContract (env : AwgEnv) (s : AwgSources) (tags : Option Bytes) (cap : Int32) :
    Prop where
  fits : ∀ out, (nw_awg_build_packet env s tags cap).1 = some out →
    out.length ≤ cap.toNatClampNeg
  malformed : (¬∃ text l, tags = some text ∧ text ≠ [] ∧ Template text l) →
    (nw_awg_build_packet env s tags cap).1 = none
  wellFormed : ∀ text l, tags = some text → text ≠ [] → Template text l →
    (nw_awg_build_packet env s tags cap).1 =
      some ((packetBytes env s l).take cap.toNatClampNeg)

end Onegram.Awg
