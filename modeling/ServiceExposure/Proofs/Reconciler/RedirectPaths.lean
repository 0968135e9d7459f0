import ServiceExposure.Proofs.Reconciler.RedirectHosts
/-!
# What a redirect keeps of an address

Nothing in the expression of a redirect says where a host ends.  So an address on one of the hosts is taken for one on the
first host, in the order of the list, that it begins with, and what is kept is whatever follows that one
(`Redirect.captures_on_host`).  That is what follows the host of the address if and only if no host before it is the
beginning of the address (`Redirect.keeps_rest_iff`), which depends on the list alone as long as hosts have no character in
them that ends a host (`Redirect.keeps_every_rest_iff`).
-/
namespace ServiceExposure
namespace Redirect

variable {hosts : List String} {host scheme rest : String}

/-- An address on a host without a line break is taken for one on the first host that it begins with. -/
theorem captures_on_host (hhost : host ∈ hosts) (hscheme : scheme = "http" ∨ scheme = "https")
    (hline : '\n' ∉ (host ++ rest).toList) : ∃ before first after left,
      Pattern.captures? (pattern hosts) (scheme ++ "://" ++ (host ++ rest)) = some [first, left] ∧
      hosts = before ++ first :: after ∧ host ++ rest = first ++ left ∧
      ∀ earlier ∈ before, ¬ earlier.toList <+: (host ++ rest).toList := by
  have hsome : (Pattern.captures? (pattern hosts) (scheme ++ "://" ++ (host ++ rest))).isSome := by
    rw [captures?_pattern hscheme, List.findSome?_isSome_iff]
    exact ⟨host, hhost, by rw [Option.isSome_map, Text.dropStem_eq_some_iff.2 rfl]; rfl⟩
  obtain ⟨groups, hgroups⟩ := Option.isSome_iff_exists.1 hsome
  have hfirst := hgroups
  rw [captures?_pattern hscheme] at hfirst
  obtain ⟨before, first, after, hsplit, hmatch, hbefore⟩ := List.findSome?_eq_some_iff.1 hfirst
  obtain ⟨left, hleft, rfl⟩ := Option.map_eq_some_iff.1 hmatch
  rw [Text.dropStem_eq_some_iff] at hleft
  -- what is left has no line break in it, so all of it is kept
  have hkept : left.toList.takeWhile (· ≠ '\n') = left.toList := by
    refine List.takeWhile_eq_self_iff.2 (fun c hc => decide_eq_true ?_)
    rintro rfl
    refine hline ?_
    rw [hleft, String.toList_append]
    exact List.mem_append_right _ hc
  rw [hkept, String.ofList_toList] at hgroups
  refine ⟨before, first, after, left, hgroups, hsplit, hleft, fun earlier hearlier hprefix => ?_⟩
  obtain ⟨more, hmore⟩ := hprefix
  have hnone := hbefore earlier hearlier
  have hdrop : Text.dropStem earlier (host ++ rest) = some (String.ofList more) := by
    refine Text.dropStem_eq_some_iff.2 (String.toList_inj.1 ?_)
    rw [← hmore]
    simp
  rw [hdrop] at hnone
  cases hnone

/-- The hosts before one of them. -/
def earlierHosts (hosts : List String) (host : String) : List String := hosts.takeWhile (· ≠ host)

theorem mem_earlierHosts_append {before after : List String} {first g : String}
    (h : g ∈ earlierHosts (before ++ first :: after) first) : g ∈ before := by
  unfold earlierHosts at h
  rw [List.takeWhile_append] at h
  split at h
  · simpa using h
  · exact (List.takeWhile_sublist _).mem h

theorem first_mem_earlierHosts {before after : List String} {first host : String} (hbefore : host ∉ before)
    (hne : first ≠ host) : first ∈ earlierHosts (before ++ first :: after) host := by
  have hothers : ∀ g ∈ before, decide (g ≠ host) = true := fun g hg => decide_eq_true (by
    rintro rfl
    exact hbefore hg)
  unfold earlierHosts
  rw [List.takeWhile_append_of_pos hothers, List.takeWhile_cons, if_pos (decide_eq_true hne)]
  exact List.mem_append_right _ List.mem_cons_self

/-- What is kept is what follows the host, unless an earlier host is the beginning of the address as well. -/
theorem exists_captures_iff (hhost : host ∈ hosts) (hscheme : scheme = "http" ∨ scheme = "https")
    (hline : '\n' ∉ (host ++ rest).toList) : ∃ first left,
      Pattern.captures? (pattern hosts) (scheme ++ "://" ++ (host ++ rest)) = some [first, left] ∧
      (left = rest ↔ ∀ earlier ∈ earlierHosts hosts host, ¬ earlier.toList <+: (host ++ rest).toList) := by
  obtain ⟨before, first, after, left, hcaptures, hsplit, hleft, hbefore⟩ := captures_on_host hhost hscheme hline
  refine ⟨first, left, hcaptures, ?_⟩
  have hfirst : left = rest ↔ first = host := by
    constructor
    · rintro rfl
      exact ((String.append_left_inj _).1 hleft).symm
    · rintro rfl
      exact ((String.append_right_inj _).1 hleft).symm
  rw [hfirst, hsplit]
  constructor
  · rintro rfl earlier hearlier
    exact hbefore earlier (mem_earlierHosts_append hearlier)
  · intro hnone
    refine Classical.byContradiction (fun hne => ?_)
    have hnot : host ∉ before := fun h => hbefore host h ⟨rest.toList, by simp⟩
    refine hnone first (first_mem_earlierHosts hnot hne) ⟨left.toList, ?_⟩
    rw [hleft, String.toList_append]

/-- **What a redirect keeps.**  Every address on an alternative host is matched.  What is kept of it is exactly what follows
the host, unless an earlier host is the beginning of the address as well. -/
theorem keeps_rest_iff (primary : String) (alternatives : List AlternativeFqdn) (scheme host rest : String)
    (hhost : host ∈ AlternativeFqdn.hosts alternatives) (hscheme : scheme = "http" ∨ scheme = "https")
    (hline : '\n' ∉ (host ++ rest).toList) :
    (regex primary alternatives).regex = (pattern (AlternativeFqdn.hosts alternatives)).render ∧
      (regex primary alternatives).replacement = "https://" ++ primary ++ "$\x7b2\x7d" ∧
      ∃ first left,
        Pattern.captures? (pattern (AlternativeFqdn.hosts alternatives)) (scheme ++ "://" ++ (host ++ rest)) =
          some [first, left] ∧
        (left = rest ↔ ∀ earlier ∈ earlierHosts (AlternativeFqdn.hosts alternatives) host,
          ¬ earlier.toList <+: (host ++ rest).toList) := ⟨rfl, rfl, exists_captures_iff hhost hscheme hline⟩

/-- A host that is the beginning of the other one is taken for it, if it comes first. -/
theorem earlier_beginning_wins :
    let alternatives := AlternativeFqdn.parseList "alt.example.co, alt.example.com"
    (regex "ces.example.com" alternatives).regex = "^https?://(alt\\.example\\.co|alt\\.example\\.com)(.*)" ∧
      "alt.example.com" ∈ AlternativeFqdn.hosts alternatives ∧
      Pattern.captures? (pattern (AlternativeFqdn.hosts alternatives)) "https://alt.example.com/scm" =
        some ["alt.example.co", "m/scm"] := by
  decide +kernel

/-- The other way round nothing is lost. -/
theorem keeps_rest_iff_longer_first :
    let alternatives := AlternativeFqdn.parseList "alt.example.com, alt.example.co"
    ∃ first, Pattern.captures? (pattern (AlternativeFqdn.hosts alternatives))
      ("http" ++ "://" ++ ("alt.example.co" ++ "/scm")) = some [first, "/scm"] := by
  intro alternatives
  obtain ⟨-, -, first, left, hcaptures, hkeeps⟩ := keeps_rest_iff "ces.example.com" alternatives "http" "alt.example.co"
    "/scm" (by decide +kernel) (.inl rfl) (by decide +kernel)
  obtain rfl : left = "/scm" := hkeeps.2 (by decide +kernel)
  exact ⟨first, hcaptures⟩

/-! ## What a redirect keeps of all addresses -/

/-- The characters that end a host in an address. -/
def endsHost (c : Char) : Bool := c ∈ ['/', '?', ':']

/-- What can follow a host in an address. -/
def FollowsHost (rest : String) : Prop := ∀ c ∈ rest.toList.head?, endsHost c = true

theorem prefix_append_iff {g : String} (hg : ∀ c ∈ g.toList, endsHost c = false) (hrest : FollowsHost rest) :
    g.toList <+: (host ++ rest).toList ↔ g.toList <+: host.toList := by
  rw [String.toList_append]
  constructor
  · intro h
    rcases List.prefix_or_prefix_of_prefix h (List.prefix_append host.toList rest.toList) with h' | ⟨more, hmore⟩
    · exact h'
    · rw [← hmore, List.prefix_append_right_inj] at h
      cases more with
      | nil =>
        rw [List.append_nil] at hmore
        exact hmore ▸ List.prefix_rfl
      | cons c more =>
        -- the host would have a character in it that ends a host
        obtain ⟨others, hothers⟩ := h
        have hc : endsHost c = true := hrest c (by rw [← hothers]; rfl)
        rw [hg c (by rw [← hmore]; exact List.mem_append_right _ List.mem_cons_self)] at hc
        cases hc
  · exact fun h => h.trans (List.prefix_append _ _)

/-- **Everything is kept of every address on a host** if and only if no host that comes before it is its beginning. -/
theorem keeps_every_rest_iff (hhost : host ∈ hosts) (hscheme : scheme = "http" ∨ scheme = "https")
    (hline : '\n' ∉ host.toList) (hplain : ∀ g ∈ hosts, ∀ c ∈ g.toList, endsHost c = false) :
    (∀ rest, FollowsHost rest → '\n' ∉ rest.toList → ∃ first,
      Pattern.captures? (pattern hosts) (scheme ++ "://" ++ (host ++ rest)) = some [first, rest]) ↔
    ∀ earlier ∈ earlierHosts hosts host, ¬ earlier.toList <+: host.toList := by
  have hkept : ∀ rest, FollowsHost rest → '\n' ∉ rest.toList → ((∃ first,
      Pattern.captures? (pattern hosts) (scheme ++ "://" ++ (host ++ rest)) = some [first, rest]) ↔
      ∀ earlier ∈ earlierHosts hosts host, ¬ earlier.toList <+: host.toList) := by
    intro rest hrest hline'
    have hnone : '\n' ∉ (host ++ rest).toList := by
      rw [String.toList_append, List.mem_append, not_or]
      exact ⟨hline, hline'⟩
    obtain ⟨first, left, hcaptures, hiff⟩ := exists_captures_iff hhost hscheme hnone
    have hplain' : ∀ earlier ∈ earlierHosts hosts host,
        (earlier.toList <+: (host ++ rest).toList ↔ earlier.toList <+: host.toList) := fun earlier hmem =>
      prefix_append_iff (hplain earlier ((List.takeWhile_sublist _).mem hmem)) hrest
    rw [hcaptures, ← forall₂_congr (fun earlier hmem => not_congr (hplain' earlier hmem)), ← hiff]
    simp
  constructor
  · intro h
    have hempty : FollowsHost "" := by
      unfold FollowsHost
      simp
    exact (hkept "" hempty (by simp)).1 (h "" hempty (by simp))
  · exact fun h rest hrest hline' => (hkept rest hrest hline').2 h

end Redirect
end ServiceExposure
