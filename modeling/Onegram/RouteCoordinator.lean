import Mathlib.Data.List.Dedup
import Mathlib.Tactic

/-!
# The routes to try

`profileFromConf:`, `endpointsForConf:` and `candidateRoutesForProfiles:` of `TGRouteCoordinator`.
A text is the list of its characters, and a route the index of a profile with one of its endpoints.
-/

namespace Onegram.RouteCoordinator

abbrev Text := List Char

structure Profile where
  conf : Text

/-! ## Configurations -/

/-- `newlineCharacterSet`. -/
def isNewline (c : Char) : Bool :=
  (0x0a ≤ c.toNat && c.toNat ≤ 0x0d) || c.toNat = 0x85 || c.toNat = 0x2028 || c.toNat = 0x2029

/-- `whitespaceAndNewlineCharacterSet`. -/
def isWhitespace (c : Char) : Bool :=
  isNewline c || c.toNat = 0x09 || c.toNat = 0x20 || c.toNat = 0xa0 || c.toNat = 0x1680
    || (0x2000 ≤ c.toNat && c.toNat ≤ 0x200a) || c.toNat = 0x202f || c.toNat = 0x205f
    || c.toNat = 0x3000

def trim (text : Text) : Text :=
  ((text.dropWhile isWhitespace).reverse.dropWhile isWhitespace).reverse

/-- One line of the loop; a dictionary is the pairs set in it so far, the last one first. -/
def confLine (profile : List (Text × Text)) (rawLine : Text) : List (Text × Text) :=
  let line := trim rawLine
  match line with
  | [] => profile
  | c :: _ =>
    if c = '#' ∨ c = ';' ∨ c = '[' then profile
    else match line.dropWhile (· ≠ '=') with
      | [] => profile
      | _ :: after =>
        let key := (trim (line.takeWhile (· ≠ '='))).map Char.toLower
        let value := trim after
        if value ≠ [] then (key, value) :: profile else profile

def profileFromConf (text : Text) : List (Text × Text) :=
  (text.splitOnP isNewline).foldl confLine []

/-! ## Endpoints -/

def liveEndpoints : List Text :=
  ["188.114.96.1:4500".toList, "188.114.97.3:4500".toList, "188.114.97.1:854".toList,
    "162.159.193.1:1701".toList, "162.159.195.1:500".toList]

def endpointIsDead (endpoint : Text) : Bool :=
  decide ("engage.cloudflareclient.com".toList <:+: endpoint)
    || "162.159.192.".toList.isPrefixOf endpoint

def endpointsForConf (parsed : List (Text × Text)) : List Text :=
  let endpoints := match parsed.lookup "endpoint".toList with
    | some own => if own ≠ [] ∧ ¬endpointIsDead own then [own] else []
    | none => []
  liveEndpoints.foldl (fun endpoints ep => if ep ∈ endpoints then endpoints else endpoints ++ [ep])
    endpoints

/-! ## Routes -/

def endpointsInFirstPass : ℕ := 2

abbrev Route := ℕ × Text

/-- `indices`: the profile selected in the settings, or all of them. -/
def selectedIndices (profiles : List Profile) (selected : ℤ) : List ℕ :=
  if 0 < selected ∧ (selected - 1).toNat < profiles.length then [(selected - 1).toNat]
  else List.range profiles.length

def endpointsOf (profiles : List Profile) (index : ℕ) : List Text :=
  match profiles[index]? with
  | some profile => endpointsForConf (profileFromConf profile.conf)
  | none => []

/-- The loop over the endpoints of one profile, from the `e`-th on; `firstPass` and `rest`. -/
def addEndpoints (index : ℕ) : List Text → ℕ → List Route × List Route → List Route × List Route
  | [], _, passes => passes
  | endpoint :: endpoints, e, (firstPass, rest) =>
    if e < endpointsInFirstPass then
      addEndpoints index endpoints (e + 1) (firstPass ++ [(index, endpoint)], rest)
    else addEndpoints index endpoints (e + 1) (firstPass, rest ++ [(index, endpoint)])

/-- `"%@|%@"`. -/
def routeKey (r : Route) : Text := (Nat.toDigits 10 r.1) ++ '|' :: r.2

def rememberedFirst (remembered : Option Text) (routes : List Route) : List Route :=
  match remembered with
  | none => routes
  | some key =>
    match routes.find? (routeKey · = key) with
    | none => routes
    | some r => r :: routes.eraseP (routeKey · = key)

def candidateRoutesForProfiles (profiles : List Profile) (selected : ℤ)
    (remembered : Option Text) : List Route :=
  let passes := (selectedIndices profiles selected).foldl
    (fun passes index => addEndpoints index (endpointsOf profiles index) 0 passes) ([], [])
  rememberedFirst remembered (passes.1 ++ passes.2)

end Onegram.RouteCoordinator
