import RepoGraph.Proofs.Text.Ascii
import RepoGraph.Proofs.Text.Blank
import RepoGraph.Proofs.Text.Split
import RepoGraph.Repository.Url

/-!
# The parts of a URL

A URL with an authority falls into a scheme, a user part, a host, a port and a rest that begins with
one of the marks that end an authority (`Url.Parts`). Reading takes off one after another: the
scheme before the first colon (`takeScheme_append`, `exists_of_takeScheme`), the authority up to
the first mark (`takeAuthority_append`, `eq_of_takeAuthority`), and of the authority what stands
after the last `@` up to the port (`Parts.IsDivided.hostOf_eq`). An authority with brackets, in
whichever part, is accepted only if its host is an address; the host of repositories is none
(`isValid_of_hostName`), so that an authority with this host has no brackets.
-/

namespace RepoGraph

open RepoGraph.Text

namespace Url

variable {s : List Char}

/-- The text, if it is not empty, begins with a mark that ends an authority. -/
def IsEnd (s : List Char) : Prop := ∀ c ∈ s.head?, endsAuthority c = true

/-! ## Scheme -/

/-- The scheme is taken off the front of a URL. -/
theorem takeScheme_append {scheme : List Char} {c : Char} (hhead : scheme.head? = some c)
    (hc : c.isAlpha = true) (h : scheme.all isSchemeChar = true) (rest : List Char) :
    takeScheme (scheme ++ ':' :: rest) = (scheme.map Char.toLower, rest) := by
  have hcolon : ':' ∉ scheme := fun hmem => by
    have hmark := List.all_eq_true.mp h ':' hmem
    exact absurd hmark (by decide)
  obtain ⟨cs, rfl⟩ := List.head?_eq_some_iff.mp hhead
  unfold takeScheme
  rw [cut?_append_cons hcolon]
  show (if c.isAlpha && (c :: cs).all isSchemeChar then _ else _) = _
  rw [hc, h]
  rfl

/-- A scheme that is not empty stood at the front of the URL, before a colon. -/
theorem exists_of_takeScheme {lower rest : List Char} (h : takeScheme s = (lower, rest))
    (hne : lower ≠ []) :
    ∃ scheme, s = scheme ++ ':' :: rest ∧ ':' ∉ scheme ∧ scheme.map Char.toLower = lower := by
  unfold takeScheme at h
  split at h
  · rename_i c cs scheme _ hcut
    split at h
    · obtain ⟨rfl, rfl⟩ := Prod.mk.inj h
      obtain ⟨heq, hcolon⟩ := cut?_eq_some_iff.mp hcut
      exact ⟨scheme, heq, hcolon, rfl⟩
    · exact absurd (Prod.mk.inj h).1.symm hne
  · exact absurd (Prod.mk.inj h).1.symm hne

/-! ## Authority -/

/-- The authority is taken off the front of what follows the scheme. -/
theorem takeAuthority_append {authority rest : List Char}
    (h : ∀ c ∈ authority, endsAuthority c = false) (hrest : IsEnd rest) :
    takeAuthority ('/' :: '/' :: (authority ++ rest)) = (authority, rest) := by
  have hkept : ∀ c ∈ authority, (!endsAuthority c) = true := by
    intro c hc
    rw [h c hc]
    rfl
  have hstop : rest.takeWhile (!endsAuthority ·) = [] ∧
      rest.dropWhile (!endsAuthority ·) = rest := by
    cases rest with
    | nil => exact ⟨rfl, rfl⟩
    | cons c cs =>
      have hc : ¬(!endsAuthority c) = true := by
        rw [hrest c rfl]
        decide
      exact ⟨List.takeWhile_cons_of_neg hc, List.dropWhile_cons_of_neg hc⟩
  show ((authority ++ rest).takeWhile (!endsAuthority ·),
    (authority ++ rest).dropWhile (!endsAuthority ·)) = _
  rw [List.takeWhile_append_of_pos hkept, List.dropWhile_append_of_pos hkept, hstop.1, hstop.2,
    List.append_nil]

/-- An authority that is not empty stood after two slashes, and a mark ended it. -/
theorem eq_of_takeAuthority {authority rest : List Char}
    (h : takeAuthority s = (authority, rest)) (hne : authority ≠ []) :
    s = '/' :: '/' :: (authority ++ rest) ∧ (∀ c ∈ authority, endsAuthority c = false) ∧
      IsEnd rest := by
  unfold takeAuthority at h
  split at h
  · rename_i below hafter
    obtain ⟨rfl, rfl⟩ := Prod.mk.inj h
    refine ⟨?_, fun c hc => ?_, fun c hc => ?_⟩
    · rw [List.takeWhile_append_dropWhile]
      exact eq_append_of_after? hafter
    · simpa using List.mem_takeWhile_imp hc
    · have hstop := List.head?_dropWhile_not (!endsAuthority ·) below
      rw [Option.mem_def.mp hc] at hstop
      simpa using hstop
  · exact absurd (Prod.mk.inj h).1.symm hne

/-! ## Host -/

/-- The parts of a URL with an authority. -/
structure Parts where
  /-- What stands before the scheme. -/
  front : List Char
  /-- The scheme. -/
  scheme : List Char
  /-- The user part, with the `@` that ends it, if there is one. -/
  user : List Char
  /-- The host. -/
  host : List Char
  /-- The port, with the colon before it, if there is one. -/
  port : List Char
  /-- What follows the authority. -/
  rest : List Char

namespace Parts

variable (p : Parts)

/-- What stands after two slashes up to the rest. -/
def authority : List Char := p.user ++ (p.host ++ p.port)

/-- The URL that the parts make up. -/
def text : List Char :=
  p.front ++ (p.scheme ++ ':' :: '/' :: '/' :: (p.authority ++ p.rest))

/-- The authority is divided at its last `@`, and what follows it at its first colon. -/
structure IsDivided : Prop where
  user : ∀ c ∈ p.user.getLast?, c = '@'
  host : '@' ∉ p.host ∧ ':' ∉ p.host
  port : '@' ∉ p.port ∧ ∀ c ∈ p.port.head?, c = ':'

/-- The parts are divided where a URL is: after what does not count in front of it, at its first
colon and at the marks of its authority. -/
structure IsDivision : Prop extends p.IsDivided where
  front : ∀ c ∈ p.front, isBlank c = true ∨ c.toNat ≤ 0x20
  scheme : ':' ∉ p.scheme
  authority : ∀ c ∈ p.authority, endsAuthority c = false
  rest : IsEnd p.rest

variable {p}

/-- Without brackets, the host is what stands between the user part and the port. -/
theorem IsDivided.hostOf_eq (h : p.IsDivided) (hbracket : '[' ∉ p.authority) :
    hostOf p.authority = p.host := by
  have hfree : '@' ∉ p.host ++ p.port := List.not_mem_append h.host.1 h.port.1
  have hlast : afterLast '@' p.authority = p.host ++ p.port := afterLast_append hfree h.user
  have hsite : '[' ∉ p.host ++ p.port := fun hmem => hbracket (List.mem_append_right _ hmem)
  unfold hostOf
  dsimp only
  rw [hlast, cut?_of_notMem hsite]
  dsimp only
  rw [before_append h.host.2 h.port.2]

/-- An authority is divided at its last `@` and at the first colon after it. -/
theorem exists_isDivided (front scheme authority rest : List Char) :
    ∃ p : Parts, p.front = front ∧ p.scheme = scheme ∧ p.authority = authority ∧ p.rest = rest ∧
      p.IsDivided := by
  obtain ⟨user, hauthority, hfree, huser⟩ := exists_eq_append_afterLast '@' authority
  generalize afterLast '@' authority = site at hauthority hfree
  obtain ⟨port, hsite, hcolon, hport⟩ := exists_eq_before_append ':' site
  rw [hsite, List.mem_append, not_or] at hfree
  refine ⟨⟨front, scheme, user, before ':' site, port, rest⟩, rfl, rfl, ?_, rfl,
    ⟨huser, ⟨hfree.1, hcolon⟩, ⟨hfree.2, hport⟩⟩⟩
  show user ++ (before ':' site ++ port) = authority
  rw [← hsite, hauthority]

end Parts

/-! ## Brackets -/

/-- The characters of the host of repositories, in any letter case, are letters and points. -/
theorem isAlpha_of_hostName {name : List Char} (h : name.map Char.toLower = Repository.hostName)
    {c : Char} (hc : c ∈ name) : c.isAlpha = true ∨ c = '.' := by
  have hmem : c.toLower ∈ Repository.hostName := h ▸ List.mem_map_of_mem hc
  have hletters : Repository.hostName.all (fun d => d.isAlpha || d == '.') = true := by decide
  rcases Bool.or_eq_true_iff.mp (List.all_eq_true.mp hletters _ hmem) with halpha | hpoint
  · exact .inl (isAlpha_of_toLower halpha)
  · exact .inr ((toLower_eq_iff (by decide)).mp (beq_iff_eq.mp hpoint))

/-- The host of repositories is no address that may stand between brackets. -/
theorem isValid_of_hostName {name : List Char} (h : name.map Char.toLower = Repository.hostName) :
    HostLiteral.isValid name = false := by
  have hfree {c : Char} (hnotAlpha : c.isAlpha = false) (hne : c ≠ '.') : c ∉ name := by
    intro hmem
    rcases isAlpha_of_hostName h hmem with halpha | hpoint
    · rw [halpha] at hnotAlpha
      cases hnotAlpha
    · exact hne hpoint
  have hcolon : ':' ∉ name := hfree (by decide) (by decide)
  have hpercent : '%' ∉ name := hfree (by decide) (by decide)
  have hversion : ¬name.head? = some 'v' := by
    intro hhead
    obtain ⟨cs, rfl⟩ := List.head?_eq_some_iff.mp hhead
    exact absurd (List.cons.inj h).1 (by decide)
  have hgroups : HostLiteral.groups? name = none := by
    unfold HostLiteral.groups?
    rw [splitOn_of_notMem hcolon]
    rfl
  unfold HostLiteral.isValid HostLiteral.isVersion6
  rw [if_neg hversion, cut?_of_notMem hpercent]
  dsimp only
  rw [hgroups, Bool.and_false]

/-- An authority whose host is that of repositories has no brackets, as these would be around an
address. -/
theorem bracket_notMem_of_bracketsFit {authority : List Char} (hfit : bracketsFit authority = true)
    (h : (hostOf authority).map Char.toLower = Repository.hostName) : '[' ∉ authority := by
  intro hmem
  have hopen : authority.contains '[' = true := List.contains_iff_mem.mpr hmem
  unfold bracketsFit at hfit
  rw [hopen, isValid_of_hostName h] at hfit
  simp at hfit

end Url

end RepoGraph
