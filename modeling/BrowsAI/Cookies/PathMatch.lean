import BrowsAI.Cookies.CookieJar

/-!
# The path of a cookie

`path_match` of `Cookie::matches` beside the path match of RFC 6265, section 5.1.4. The two differ
where the cookie path ends in several slashes: `path_match_iff_rfc`.
-/

namespace BrowsAI.Cookies

open Utf8 Network

/-- The path match of the RFC. -/
def RfcPathMatches (cookiePath urlPath : Text) : Prop :=
  urlPath = cookiePath ∨
    cookiePath <+: urlPath ∧
      (cookiePath.getLast? = some '/' ∨ urlPath[cookiePath.length]? = some '/')

instance (cookiePath urlPath : Text) : Decidable (RfcPathMatches cookiePath urlPath) :=
  inferInstanceAs <| Decidable (_ ∨ _ ∧ (_ ∨ _))

namespace Cookie

/-- `path_match` of `matches`. -/
def pathMatch (cookiePath urlPath : Text) : Bool :=
  if cookiePath = "/" then true
  else
    urlPath == cookiePath ||
      (cookiePath.rdropWhile (· = '/') ++ "/").isPrefixOf urlPath

variable {U : Type} [Url U]

/-- The path condition of `matches` is `pathMatch`. -/
theorem matches_url_eq (cookie : Cookie) (url : U) :
    cookie.matchesUrl url =
      match Url.hostStr url with
      | none => false
      | some host =>
          (if cookie.hostOnly then asciiLower host == asciiLower cookie.domain
            else asciiLower host == asciiLower cookie.domain ||
              (("." : Text) ++ asciiLower cookie.domain).isSuffixOf (asciiLower host)) &&
          pathMatch cookie.path (Url.path url) &&
            (!cookie.secure || Url.scheme url == "https") := by
  unfold matchesUrl pathMatch
  rfl

/-- The cookie path ends in several slashes, and the URL has its text up to the first of these, but
not all of them. -/
def SlashesTrimmed (cookiePath urlPath : Text) : Prop :=
  ("//" : Text) <:+ cookiePath ∧ cookiePath.rdropWhile (· = '/') ++ ['/'] <+: urlPath ∧
    ¬ cookiePath <+: urlPath

theorem path_match_eq_true_iff {cookiePath urlPath : Text} (h : cookiePath ≠ "/") :
    pathMatch cookiePath urlPath = true ↔
      urlPath = cookiePath ∨ cookiePath.rdropWhile (· = '/') ++ ['/'] <+: urlPath := by
  have hslash : ("/" : Text) = ['/'] := by decide
  rw [pathMatch, if_neg h, Bool.or_eq_true, beq_iff_eq, List.isPrefixOf_iff_prefix, hslash]

/-- One more character of a prefix is the one that stands there. -/
theorem append_singleton_prefix_iff {p t : Text} {c : Char} :
    p ++ [c] <+: t ↔ p <+: t ∧ t[p.length]? = some c := by
  constructor
  · intro h
    obtain ⟨rest, rfl⟩ := h
    exact ⟨⟨[c] ++ rest, by rw [List.append_assoc]⟩, by simp⟩
  · intro h
    obtain ⟨⟨rest, rfl⟩, hc⟩ := h
    cases rest with
    | nil => simp at hc
    | cons d rest =>
        have hd : d = c := by simpa using hc
        exact ⟨rest, by simp [hd]⟩

/-- Of the slashes at the end of a text, the first one remains. -/
theorem trimmed_prefix_append (p : Text) :
    p.rdropWhile (· = '/') ++ ['/'] <+: p ++ ['/'] := by
  induction p using List.reverseRecOn with
  | nil => exact List.prefix_rfl
  | append_singleton p c ih =>
      by_cases hc : c = '/'
      · subst hc
        rw [List.rdropWhile_concat_pos _ _ _ (by simp)]
        exact ih.trans (List.prefix_append _ _)
      · have htrim : (p ++ [c]).rdropWhile (· = '/') = p ++ [c] :=
          List.rdropWhile_concat_neg _ _ _ (by simpa using hc)
        exact htrim.symm ▸ List.prefix_rfl

/-- A cookie path without a slash at its end. -/
theorem path_match_of_last_ne {p urlPath : Text} {c : Char} (hc : c ≠ '/') :
    pathMatch (p ++ [c]) urlPath = true ↔ RfcPathMatches (p ++ [c]) urlPath := by
  have hne : p ++ [c] ≠ ("/" : Text) := by
    intro h
    have hlast := congrArg List.getLast? h
    rw [List.getLast?_concat] at hlast
    exact hc (Option.some.inj hlast)
  have htrim : (p ++ [c]).rdropWhile (· = '/') = p ++ [c] :=
    List.rdropWhile_concat_neg _ _ _ (by simpa using hc)
  rw [path_match_eq_true_iff hne, htrim, RfcPathMatches]
  refine or_congr_right (append_singleton_prefix_iff.trans (and_congr_right fun _ => ?_))
  rw [List.getLast?_concat]
  exact ⟨.inr, fun h => h.resolve_left fun heq => hc (Option.some.inj heq)⟩

/-- A cookie path with one slash at its end. -/
theorem path_match_of_slash {p urlPath : Text} {c : Char} (hc : c ≠ '/') :
    pathMatch (p ++ [c] ++ ['/']) urlPath = true ↔
      RfcPathMatches (p ++ [c] ++ ['/']) urlPath := by
  have hne : p ++ [c] ++ ['/'] ≠ ("/" : Text) := by
    intro h
    have hlength := congrArg List.length h
    simp at hlength
  have htrim : (p ++ [c] ++ ['/']).rdropWhile (· = '/') = p ++ [c] := by
    rw [List.rdropWhile_concat_pos _ _ _ (by simp)]
    exact List.rdropWhile_concat_neg _ _ _ (by simpa using hc)
  rw [path_match_eq_true_iff hne, htrim, RfcPathMatches, List.getLast?_concat]
  exact or_congr_right ⟨fun h => ⟨h, .inl rfl⟩, fun h => h.1⟩

/-- A cookie path with several slashes at its end. -/
theorem path_match_of_slashes {p urlPath : Text} :
    pathMatch (p ++ ['/'] ++ ['/']) urlPath = true ↔
      RfcPathMatches (p ++ ['/'] ++ ['/']) urlPath ∨
        SlashesTrimmed (p ++ ['/'] ++ ['/']) urlPath := by
  have hne : p ++ ['/'] ++ ['/'] ≠ ("/" : Text) := by
    intro h
    have hlength := congrArg List.length h
    simp at hlength
  have hsuffix : ("//" : Text) <:+ p ++ ['/'] ++ ['/'] :=
    ⟨p, by rw [List.append_assoc]; exact congrArg (p ++ ·) (by decide)⟩
  have htrimmed : (p ++ ['/'] ++ ['/']).rdropWhile (· = '/') ++ ['/'] <+: p ++ ['/'] ++ ['/'] := by
    rw [List.rdropWhile_concat_pos _ _ _ (by simp), List.rdropWhile_concat_pos _ _ _ (by simp)]
    exact (trimmed_prefix_append p).trans (List.prefix_append _ _)
  rw [path_match_eq_true_iff hne, RfcPathMatches, List.getLast?_concat, SlashesTrimmed]
  constructor
  · intro h
    by_cases hstart : p ++ ['/'] ++ ['/'] <+: urlPath
    · exact .inl (.inr ⟨hstart, .inl rfl⟩)
    · obtain heq | htrim := h
      · exact .inl (.inl heq)
      · exact .inr ⟨hsuffix, htrim, hstart⟩
  · intro h
    obtain (heq | ⟨hstart, -⟩) | ⟨-, htrim, -⟩ := h
    · exact .inl heq
    · exact .inr (htrimmed.trans hstart)
    · exact .inr htrim

/-- The cookie path `/` by itself. -/
theorem rfc_path_matches_slash {urlPath : Text} :
    RfcPathMatches ['/'] urlPath ↔ urlPath.head? = some '/' := by
  cases urlPath with
  | nil => simp [RfcPathMatches]
  | cons c rest =>
      rw [RfcPathMatches, List.cons_prefix_cons, List.head?_cons, Option.some.injEq]
      constructor
      · intro h
        obtain h | ⟨⟨h, -⟩, -⟩ := h
        · exact (List.cons.inj h).1
        · exact h.symm
      · intro h
        exact .inr ⟨⟨h.symm, List.nil_prefix⟩, .inl rfl⟩

theorem slashes_of_slashes_trimmed {cookiePath urlPath : Text}
    (h : SlashesTrimmed cookiePath urlPath) : ∃ p, cookiePath = p ++ ['/'] ++ ['/'] := by
  obtain ⟨p, hp⟩ := h.1
  refine ⟨p, hp.symm.trans ?_⟩
  rw [List.append_assoc]
  exact congrArg (p ++ ·) (by decide)

/-- The condition of `matches` is the path match of the RFC, except for the cookie path `/` and a
URL path that does not begin with a slash, and for the slashes at the end of a cookie path. -/
theorem path_match_iff_rfc (cookie : Cookie) (url : U) (hcookie : cookie.path.head? = some '/') :
    (pathMatch cookie.path (Url.path url) = true ↔ RfcPathMatches cookie.path (Url.path url)) ↔
      ¬ (cookie.path = "/" ∧ (Url.path url).head? ≠ some '/') ∧
        ¬ SlashesTrimmed cookie.path (Url.path url) := by
  have hslash : ("/" : Text) = ['/'] := by decide
  rw [hslash]
  generalize cookie.path = path at hcookie ⊢
  generalize Url.path url = urlPath
  -- by the number of slashes at the end of the cookie path
  obtain rfl | ⟨p, c, rfl⟩ := List.eq_nil_or_concat' path
  · cases hcookie
  by_cases hc : c = '/'
  · subst hc
    obtain rfl | ⟨p, d, rfl⟩ := List.eq_nil_or_concat' p
    · have hmatch : pathMatch ['/'] urlPath = true := if_pos hslash.symm
      have htrimmed : ¬ SlashesTrimmed ['/'] urlPath := by
        intro h
        obtain ⟨q, hq⟩ := slashes_of_slashes_trimmed h
        have hlength := congrArg List.length hq
        simp at hlength
      rw [List.nil_append, hmatch, rfc_path_matches_slash]
      simp [htrimmed]
    · have hne : p ++ [d] ++ ['/'] ≠ ['/'] := by
        intro h
        have hlength := congrArg List.length h
        simp at hlength
      by_cases hd : d = '/'
      · subst hd
        have hdiffer : SlashesTrimmed (p ++ ['/'] ++ ['/']) urlPath →
            ¬ RfcPathMatches (p ++ ['/'] ++ ['/']) urlPath := by
          intro h hrfc
          obtain heq | ⟨hstart, -⟩ := hrfc
          · exact h.2.2 (heq ▸ List.prefix_rfl)
          · exact h.2.2 hstart
        rw [path_match_of_slashes]
        constructor
        · intro h
          exact ⟨fun hroot => hne hroot.1, fun htrim => hdiffer htrim (h.mp (.inr htrim))⟩
        · intro h
          exact or_iff_left h.2
      · refine iff_of_true (path_match_of_slash hd) ⟨fun h => hne h.1, fun h => ?_⟩
        obtain ⟨q, hq⟩ := slashes_of_slashes_trimmed h
        have hlast := congrArg List.getLast? (List.append_cancel_right hq)
        rw [List.getLast?_concat, List.getLast?_concat] at hlast
        exact hd (Option.some.inj hlast)
  · refine iff_of_true (path_match_of_last_ne hc) ⟨fun h => ?_, fun h => ?_⟩
    · have hlast := congrArg List.getLast? h.1
      rw [List.getLast?_concat] at hlast
      exact hc (Option.some.inj hlast)
    · obtain ⟨q, hq⟩ := slashes_of_slashes_trimmed h
      have hlast := congrArg List.getLast? hq
      rw [List.getLast?_concat, List.getLast?_concat] at hlast
      exact hc (Option.some.inj hlast)

theorem app_path_match :
    let cookie : Cookie := ⟨"sid", "abc", "shop.test", true, "/app/", false, false, none, none⟩
    let url : PlainUrl := ⟨"https", "shop.test", "/app/page"⟩
    (pathMatch cookie.path (Url.path url) = true ↔ RfcPathMatches cookie.path (Url.path url)) ↔
      ¬ (cookie.path = "/" ∧ (Url.path url).head? ≠ some '/') ∧
        ¬ SlashesTrimmed cookie.path (Url.path url) :=
  path_match_iff_rfc _ _ (by decide)

/-- A cookie of the path `/a//` is sent to `/a/b`. -/
theorem trimmed_path_sent :
    let cookie : Cookie := ⟨"sid", "abc", "shop.test", true, "/a//", false, false, none, none⟩
    let url : PlainUrl := ⟨"https", "shop.test", "/a/b"⟩
    cookie.matchesUrl url = true ∧ pathMatch cookie.path (Url.path url) = true ∧
      ¬ RfcPathMatches cookie.path (Url.path url) := by
  decide

end Cookie

end BrowsAI.Cookies
