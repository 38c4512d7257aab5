import ReverseProxy.Hyper

namespace ReverseProxy.D
open HttpHead Multimap Net
set_option autoImplicit true

def slash : UInt8 := 47
def question : UInt8 := 63
def hash : UInt8 := 35

/-- A request target in origin form or in absolute form. -/
inductive Target
  | origin (path : Bytes) (query : Option Bytes)
  | absolute (scheme authority path : Bytes) (query : Option Bytes)
deriving DecidableEq, Repr

def Target.path : Target → Bytes
  | .origin path _ | .absolute _ _ path _ => path

def Target.query : Target → Option Bytes
  | .origin _ query | .absolute _ _ _ query => query

def Target.rest (t : Target) : Bytes :=
  t.path ++ match t.query with
    | none => []
    | some q => question :: q

def Target.text (t : Target) : Bytes :=
  match t with
  | .origin _ _ => t.rest
  | .absolute scheme authority _ _ => scheme ++ ascii "://" ++ authority ++ t.rest

def isSchemeByte (b : UInt8) : Bool :=
  (48 ≤ b && b ≤ 57) || (65 ≤ b && b ≤ 90) || (97 ≤ b && b ≤ 122) || [43, 45, 46].contains b

def isAuthorityByte (b : UInt8) : Bool := b != slash && b != question && b != hash

def isPathByte (b : UInt8) : Bool := b != question && b != hash

/-- The components are told apart by their delimiters, and a path begins with a slash; the path of
an absolute form can be empty. -/
def Target.Wf : Target → Prop
  | .origin path query =>
    path.head? = some slash ∧ path.all isPathByte = true ∧ hash ∉ query.getD []
  | .absolute scheme authority path query =>
    scheme ≠ [] ∧ scheme.all isSchemeByte = true ∧ authority.all isAuthorityByte = true ∧
      (path = [] ∨ path.head? = some slash) ∧ path.all isPathByte = true ∧
      hash ∉ query.getD []

def PathOnly (crate : HttpCrate M U) (u : U) : Prop :=
  crate.scheme u = none ∧ crate.authority u = none

/-- What the crate documents of URIs: the text of the path and query, the parse of an origin form,
which takes the path and query of any form, and the texts that have nothing before the path. -/
structure HttpCrate.UriConforms (crate : HttpCrate M U) : Prop where
  pathAndQuery : ∀ (t : Target) u, t.Wf → crate.parseUri t.text = some u →
    crate.pathAndQuery u = some (if t.rest = [] then ascii "/" else t.rest)
  origin : ∀ path query u, (Target.origin path query).Wf →
    crate.parseUri (Target.origin path query).text = some u →
    PathOnly crate u ∧ crate.path u = path ∧ crate.query u = query
  accepted : ∀ (t : Target) u, t.Wf → t.path ≠ [] → crate.parseUri t.text = some u →
    (crate.parseUri t.rest).isSome = true
  root : (crate.parseUri (ascii "/")).isSome = true
  pathOnly : ∀ text u, crate.parseUri text = some u → PathOnly crate u →
    text.head? = some slash ∨ text = ascii "*"

structure PlainUri where
  scheme : Option Bytes
  authority : Option Bytes
  rest : Bytes
deriving DecidableEq, Repr

def splitScheme (text : Bytes) : Option (Bytes × Bytes) :=
  let scheme := text.takeWhile isSchemeByte
  if scheme ≠ [] ∧ ascii "://" <+: text.dropWhile isSchemeByte then
    some (scheme, (text.dropWhile isSchemeByte).drop 3)
  else none

/-- A parser of URIs that takes any bytes for the components but the delimiters. -/
def parsePlainUri (text : Bytes) : Option PlainUri :=
  if text.head? = some slash ∨ text = ascii "*" then
    if hash ∈ text then none else some ⟨none, none, text⟩
  else
    match splitScheme text with
    | some (scheme, after) =>
      let rest := after.dropWhile isAuthorityByte
      if hash ∈ rest then none
      else some ⟨some scheme, some (after.takeWhile isAuthorityByte), rest⟩
    | none =>
      if text ≠ [] ∧ text.all isAuthorityByte = true then some ⟨none, some text, []⟩ else none

def PlainUri.path (u : PlainUri) : Bytes :=
  if u.rest.takeWhile isPathByte = [] then ascii "/" else u.rest.takeWhile isPathByte

def PlainUri.query (u : PlainUri) : Option Bytes :=
  match u.rest.dropWhile isPathByte with
  | [] => none
  | _ :: q => some q

def PlainUri.pathAndQuery (u : PlainUri) : Option Bytes :=
  if u.scheme.isNone = true ∧ u.authority.isSome = true then none
  else if u.rest = [] then some (ascii "/") else some u.rest

/-- Header maps as lists of fields, and the URIs above. -/
def plainCrate : HttpCrate (List (Bytes × Bytes)) PlainUri where
  headers := listOps foldCase
  nameFromBytes n := some (foldCase n)
  valueFromStr v := if v.all isValueChar then some v else none
  parseUri := parsePlainUri
  scheme := PlainUri.scheme
  authority := PlainUri.authority
  path := PlainUri.path
  query := PlainUri.query
  pathAndQuery := PlainUri.pathAndQuery

theorem foldCase_foldCase (n : Bytes) : foldCase (foldCase n) = foldCase n := by
  have hlower : toAsciiLower ∘ toAsciiLower = toAsciiLower := by
    funext b
    simp only [Function.comp, toAsciiLower]
    grind
  rw [foldCase, foldCase, List.map_map, hlower]

theorem plainCrate_mapConforms : plainCrate.MapConforms where
  lawful := listOps_lawful foldCase
  name n _ _ := ⟨foldCase n, rfl, foldCase_foldCase n⟩
  value _ hv := if_pos hv
  unchanged _ _ hv := (Option.some.inj (Option.ite_none_right_eq_some.1 hv).2).symm

theorem rest_takeWhile {t : Target} (h : t.path.all isPathByte = true) :
    t.rest.takeWhile isPathByte = t.path := by
  rw [Target.rest, List.takeWhile_append_of_pos (List.all_eq_true.1 h)]
  cases t.query <;> simp [isPathByte]

theorem rest_dropWhile {t : Target} (h : t.path.all isPathByte = true) :
    t.rest.dropWhile isPathByte = match t.query with
      | none => []
      | some q => question :: q := by
  rw [Target.rest, List.dropWhile_append_of_pos (List.all_eq_true.1 h)]
  cases t.query <;> simp [isPathByte]

theorem splitScheme_absolute {scheme : Bytes} (hne : scheme ≠ [])
    (h : scheme.all isSchemeByte = true) (after : Bytes) :
    splitScheme (scheme ++ ascii "://" ++ after) = some (scheme, after) := by
  have hsep : ascii "://" = [58, slash, slash] := by decide
  have htake : (scheme ++ ascii "://" ++ after).takeWhile isSchemeByte = scheme := by
    rw [List.append_assoc, List.takeWhile_append_of_pos (List.all_eq_true.1 h), hsep,
      List.cons_append, List.takeWhile_cons_of_neg (by decide), List.append_nil]
  have hdrop : (scheme ++ ascii "://" ++ after).dropWhile isSchemeByte = ascii "://" ++ after := by
    rw [List.append_assoc, List.dropWhile_append_of_pos (List.all_eq_true.1 h), hsep,
      List.cons_append, List.dropWhile_cons_of_neg (by decide)]
  simp only [splitScheme, htake, hdrop]
  rw [if_pos ⟨hne, List.prefix_append _ _⟩]
  rfl

theorem parsePlainUri_split {scheme authority rest : Bytes} (hne : scheme ≠ [])
    (hs : scheme.all isSchemeByte = true) (ha : authority.all isAuthorityByte = true)
    (hhead : ∀ b, rest.head? = some b → isAuthorityByte b = false) (hrest : hash ∉ rest) :
    parsePlainUri (scheme ++ ascii "://" ++ authority ++ rest) =
      some ⟨some scheme, some authority, rest⟩ := by
  have hplain : ¬ ((scheme ++ ascii "://" ++ authority ++ rest).head? = some slash ∨
      scheme ++ ascii "://" ++ authority ++ rest = ascii "*") := by
    obtain ⟨c, cs, rfl⟩ := List.exists_cons_of_ne_nil hne
    have hc : isSchemeByte c = true := List.all_eq_true.1 hs c List.mem_cons_self
    rintro (hslash | hstar)
    · cases hslash
      cases hc
    · cases (List.cons.inj hstar).1
      cases hc
  have htake : (authority ++ rest).takeWhile isAuthorityByte = authority := by
    rw [List.takeWhile_append_of_pos (List.all_eq_true.1 ha)]
    cases rest with
    | nil => exact List.append_nil _
    | cons b rest =>
      rw [List.takeWhile_cons_of_neg (by rw [hhead b rfl]; exact Bool.false_ne_true),
        List.append_nil]
  have hdrop : (authority ++ rest).dropWhile isAuthorityByte = rest := by
    rw [List.dropWhile_append_of_pos (List.all_eq_true.1 ha)]
    cases rest with
    | nil => rfl
    | cons b rest =>
      rw [List.dropWhile_cons_of_neg (by rw [hhead b rfl]; exact Bool.false_ne_true)]
  have hsplit := splitScheme_absolute hne hs (authority ++ rest)
  rw [← List.append_assoc] at hsplit
  rw [parsePlainUri, if_neg hplain]
  simp only [hsplit, htake, hdrop]
  rw [if_neg hrest]

theorem Target.Wf.head_path {t : Target} (h : t.Wf) :
    t.path = [] ∨ t.path.head? = some slash := by
  cases t with
  | origin path query => exact .inr h.1
  | absolute scheme authority path query => exact h.2.2.2.1

theorem Target.Wf.all_path {t : Target} (h : t.Wf) : t.path.all isPathByte = true := by
  cases t with
  | origin path query => exact h.2.1
  | absolute scheme authority path query => exact h.2.2.2.2.1

theorem Target.Wf.hash_query {t : Target} (h : t.Wf) : hash ∉ t.query.getD [] := by
  cases t with
  | origin path query => exact h.2.2
  | absolute scheme authority path query => exact h.2.2.2.2.2

theorem rest_head {t : Target} (h : t.Wf) (hb : t.rest.head? = some b) :
    isAuthorityByte b = false := by
  rcases h.head_path with hp | hp
  · rw [Target.rest, hp, List.nil_append] at hb
    cases hq : t.query with
    | none =>
      rw [hq] at hb
      cases hb
    | some q =>
      rw [hq] at hb
      cases hb
      rfl
  · rw [Target.rest, List.head?_append, hp] at hb
    cases hb
    rfl

theorem hash_not_mem_rest {t : Target} (h : t.Wf) : hash ∉ t.rest := by
  have hq := h.hash_query
  rw [Target.rest, List.mem_append, not_or]
  constructor
  · intro hm
    have := List.all_eq_true.1 h.all_path hash hm
    cases this
  · cases ht : t.query with
    | none => exact List.not_mem_nil
    | some q =>
      rw [ht] at hq
      simp only [List.mem_cons, not_or]
      exact ⟨by decide, hq⟩

theorem parsePlainUri_origin {t : Target} (h : t.Wf) (hp : t.path.head? = some slash) :
    parsePlainUri t.rest = some ⟨none, none, t.rest⟩ := by
  have hhead : t.rest.head? = some slash := by
    rw [Target.rest, List.head?_append, hp]
    rfl
  rw [parsePlainUri, if_pos (.inl hhead), if_neg (hash_not_mem_rest h)]

theorem parsePlainUri_text {t : Target} (h : t.Wf) :
    ∃ u, parsePlainUri t.text = some u ∧ u.rest = t.rest ∧
      ¬ (u.scheme.isNone = true ∧ u.authority.isSome = true) := by
  cases t with
  | origin path query => exact ⟨_, parsePlainUri_origin h h.1, rfl, nofun⟩
  | absolute scheme authority path query =>
    exact ⟨_, parsePlainUri_split h.1 h.2.1 h.2.2.1 (fun b => rest_head h) (hash_not_mem_rest h),
      rfl, nofun⟩

theorem parsePlainUri_pathOnly (h : parsePlainUri text = some u)
    (hu : u.scheme = none ∧ u.authority = none) : text.head? = some slash ∨ text = ascii "*" := by
  by_contra hplain
  rw [parsePlainUri, if_neg hplain] at h
  split at h
  · simp only at h
    split at h
    · cases h
    · cases h
      cases hu.1
  · split at h
    · cases h
      cases hu.2
    · cases h

theorem plainCrate_uriConforms : plainCrate.UriConforms where
  pathAndQuery t u ht hparse := by
    obtain ⟨u', hu', hrest, hauth⟩ := parsePlainUri_text ht
    obtain rfl : u' = u := Option.some.inj (hu'.symm.trans hparse)
    have : plainCrate.pathAndQuery u' = PlainUri.pathAndQuery u' := rfl
    rw [this, PlainUri.pathAndQuery, if_neg hauth, hrest]
    split <;> rfl
  origin path query u ht hparse := by
    obtain rfl : _ = u := Option.some.inj ((parsePlainUri_origin ht ht.1).symm.trans hparse)
    have hne : path ≠ [] := by
      rintro rfl
      cases ht.1
    refine ⟨⟨rfl, rfl⟩, ?_, ?_⟩
    · have htake := rest_takeWhile (t := .origin path query) ht.2.1
      have : plainCrate.path = PlainUri.path := rfl
      rw [this, PlainUri.path, htake]
      exact if_neg hne
    · have hdrop := rest_dropWhile (t := .origin path query) ht.2.1
      have : plainCrate.query = PlainUri.query := rfl
      rw [this, PlainUri.query, hdrop]
      cases query <;> rfl
  accepted t u ht hp _ := by
    have hslash := ht.head_path.resolve_left hp
    have : plainCrate.parseUri t.rest = parsePlainUri t.rest := rfl
    rw [this, parsePlainUri_origin ht hslash]
    rfl
  root := rfl
  pathOnly _ _ h hu := parsePlainUri_pathOnly h hu

end ReverseProxy.D
