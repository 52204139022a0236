import BrowsAI.Library.LastOf
import BrowsAI.Library.Runs
import BrowsAI.Permissions.Wire

/-!
# The answers of a permission manager

A check gives the `answer` that the last decision about its key determines, whatever else was
called: the grants and the decisions `Agree` with that decision, also after the grant has run out
and was purged. Purging and reloading decide nothing, so they change no answer.
-/

namespace BrowsAI.Permissions

open Std Utf8 Profiles Saturating LastOf

/-- A call. -/
inductive Op where
  | set (profile : ProfileId) (origin : Text) (permission : Permission) (granted : Bool)
  | grantFor (profile : ProfileId) (request : PermissionRequest) (lifetime : Option UInt64)
  | revoke (profile : ProfileId) (origin : Text) (permission : Permission)
  | request (profile : ProfileId) (request : PermissionRequest)
  | purgeExpired
  | reload
  deriving DecidableEq

/-- What a call decides about a key. -/
inductive Outcome where
  | granted (expires : Option UInt64) | denied | revoked

/-- What a call at a reading of the clock decides. -/
def decided : UInt64 × Op → List (PermissionKey × Outcome)
  | (_, .set profile origin permission granted) =>
      [(⟨profile, origin, permission⟩, if granted then .granted none else .denied)]
  | (now, .grantFor profile request lifetime) =>
      [(⟨profile, request.origin, request.permission⟩,
        .granted (lifetime.map fun seconds => saturatingAdd now seconds))]
  | (_, .revoke profile origin permission) => [(⟨profile, origin, permission⟩, .revoked)]
  | (_, .request _ _) | (_, .purgeExpired) | (_, .reload) => []

/-- The answer after the last decision about a key. -/
def answer (now : UInt64) : Option Outcome → PermissionDecision
  | some (.granted none) => .granted
  | some (.granted (some expires)) => if now < expires then .granted else .prompt
  | some .denied => .denied
  | some .revoked | none => .prompt

namespace PermissionManager

/-- A call at a time. -/
def perform (json : Json) (m : PermissionManager) : UInt64 × Op → PermissionManager
  | (_, .set profile origin permission granted) => m.set profile origin permission granted
  | (now, .grantFor profile request lifetime) => (m.grantFor profile request lifetime now).2
  | (_, .revoke profile origin permission) => m.revoke profile origin permission
  | (now, .request profile request) => (m.request profile request now).2
  | (now, .purgeExpired) => (m.purgeExpired now).2
  | (_, .reload) => ((m.toJson json).bind (fromJson json)).getD m

/-- The calls are all allowed; the text that is reloaded reads back as what was written. -/
def machine (json : Json) : Machine PermissionManager (UInt64 × Op) where
  step := perform json
  Allowed m call := call.2 = .reload → json.ReadsBack m.toWire

/-- The entries of a key fit the last decision about it. A grant that has run out may be gone. -/
def Agree (now : UInt64) (grant : Option PermissionGrant) (decision : Option PermissionDecision) :
    Option Outcome → Prop
  | some (.granted expires) =>
      (∃ g, grant = some g ∧ g.expiresAtUnixSeconds = expires ∧ decision = some .granted) ∨
        ((∃ end_, expires = some end_ ∧ end_ ≤ now) ∧ grant = none ∧ decision = none)
  | some .denied => grant = none ∧ decision = some .denied
  | some .revoked | none => grant = none ∧ decision = none

variable {m : PermissionManager} {json : Json} {now now' : UInt64}
  {log : List (PermissionKey × Outcome)}

section Agree

variable {grant : Option PermissionGrant} {decision : Option PermissionDecision}
  {outcome : Option Outcome}

theorem Agree.mono (h : Agree now grant decision outcome) (hnow : now ≤ now') :
    Agree now' grant decision outcome := by
  rcases outcome with _ | expires | _ | _
  · exact h
  · obtain hlive | ⟨⟨end_, hend, hle⟩, hgone⟩ := h
    · exact .inl hlive
    · exact .inr ⟨⟨end_, hend, UInt64.le_trans hle hnow⟩, hgone⟩
  · exact h
  · exact h

/-- A grant is kept beside its decision. -/
theorem Agree.grant_eq_none (h : Agree now grant decision outcome) (hdecision : decision = none) :
    grant = none := by
  rcases outcome with _ | expires | _ | _
  · exact h.1
  · obtain ⟨_, _, _, hgranted⟩ | ⟨_, hgone, _⟩ := h
    · exact nomatch hdecision.symm.trans hgranted
    · exact hgone
  · exact h.1
  · exact h.1

/-- The check tells the outcome of what is stored. -/
theorem check_of_agree {profile : ProfileId} {origin : Text} {permission : Permission}
    (h : Agree now m.grants[(⟨profile, origin, permission⟩ : PermissionKey)]?
      m.decisions[(⟨profile, origin, permission⟩ : PermissionKey)]? outcome) :
    m.check profile origin permission now = answer now outcome := by
  rw [check]
  rcases outcome with _ | expires | _ | _
  · rw [h.1, h.2]
    rfl
  · obtain ⟨g, hgrant, hexpires, _⟩ | ⟨⟨end_, hend, hle⟩, hgrant, hdecision⟩ := h
    · rw [hgrant, ← hexpires]
      cases hend : g.expiresAtUnixSeconds with
      | none => simp [answer, hend]
      | some end_ => simp [answer, hend]
    · rw [hgrant, hdecision, hend, answer, if_neg (UInt64.not_lt.mpr hle)]
      rfl
  · rw [h.1, h.2]
    rfl
  · rw [h.1, h.2]
    rfl

end Agree

/-- Every key agrees with the last decision about it. -/
def Sound (now : UInt64) (log : List (PermissionKey × Outcome)) (m : PermissionManager) : Prop :=
  ∀ key : PermissionKey, Agree now m.grants[key]? m.decisions[key]? (lastOf key log)

theorem sound_default : Sound now [] default := by
  intro key
  simp [Agree, default]

/-- A call that writes the entries of one key. -/
theorem Sound.write (h : Sound now log m) {m' : PermissionManager} {key : PermissionKey}
    {outcome : Outcome} (hself : Agree now m'.grants[key]? m'.decisions[key]? (some outcome))
    (hframe : ∀ other, key ≠ other → m'.grants[other]? = m.grants[other]? ∧
      m'.decisions[other]? = m.decisions[other]?) :
    Sound now (log ++ [(key, outcome)]) m' := by
  intro other
  rw [last_of_concat]
  split_ifs with hkey
  · rw [← hkey]
    exact hself
  · rw [(hframe other hkey).1, (hframe other hkey).2]
    exact h other

/-- A purge changes no outcome. -/
theorem Sound.purge (h : Sound now log m) : Sound now log (m.purgeExpired now).2 := by
  intro key
  have hkey := h key
  have hgrants : (m.purgeExpired now).2.grants[key]? =
      if m.grants[key]?.any fun grant => grant.expired now then none else m.grants[key]? := by
    rw [purgeExpired, grants_foldl_purge]
    simp only [mem_expired]
  have hdecisions : (m.purgeExpired now).2.decisions[key]? =
      if (m.grants[key]?.any fun grant => grant.expired now) ∧
        m.decisions[key]? = some .granted then none else m.decisions[key]? := by
    rw [purgeExpired, decisions_foldl_purge]
    simp only [mem_expired]
  rw [hgrants, hdecisions]
  generalize lastOf key log = outcome at hkey
  rcases outcome with _ | expires | _ | _
  · simpa [hkey.1] using hkey
  · obtain ⟨g, hgrant, hexpires, hdecision⟩ | ⟨hend, hgrant, hdecision⟩ := hkey
    · by_cases hexpired : g.expired now
      · obtain ⟨end_, hend, hle⟩ := (Option.any_eq_true _ _).mp hexpired
        refine .inr ⟨⟨end_, hexpires.symm.trans hend, of_decide_eq_true hle⟩, ?_, ?_⟩
        · simp [hgrant, hexpired]
        · simp [hgrant, hexpired, hdecision]
      · refine .inl ⟨g, ?_, hexpires, ?_⟩
        · simp [hgrant, hexpired]
        · simp [hgrant, hexpired, hdecision]
    · refine .inr ⟨hend, ?_, ?_⟩
      · simp [hgrant]
      · simp [hgrant, hdecision]
  · simpa [hkey.1] using hkey
  · simpa [hkey.1] using hkey

/-- A call keeps the outcomes in step with the decisions. -/
theorem Sound.perform (h : Sound now log m) {call : UInt64 × Op} (hnow : call.1 = now)
    (hallowed : (machine json).Allowed m call) :
    Sound now (log ++ decided call) (m.perform json call) := by
  obtain ⟨tick, op⟩ := call
  obtain rfl : tick = now := hnow
  cases op with
  | set profile origin permission granted =>
      refine h.write ?_ fun other hother => ?_
      · cases granted <;> simp [perform, PermissionManager.set, Agree]
      · cases granted with
        | false =>
            simp [perform, PermissionManager.set, OrdMap.get_insert, OrdMap.get_erase, hother]
        | true => simp [perform, PermissionManager.set, OrdMap.get_insert, hother]
  | grantFor profile request lifetime =>
      refine h.write ?_ fun other hother => ?_
      · simp [perform, grantFor, Agree]
      · simp [perform, grantFor, OrdMap.get_insert, hother]
  | revoke profile origin permission =>
      refine h.write ?_ fun other hother => ?_
      · simp [perform, revoke, Agree]
      · simp [perform, revoke, OrdMap.get_erase, hother]
  | request profile request =>
      rw [decided, List.append_nil]
      exact h
  | purgeExpired =>
      rw [decided, List.append_nil]
      exact h.purge
  | reload =>
      obtain ⟨text, hwritten, hread⟩ := hallowed rfl
      have hreloaded : m.perform json (tick, .reload) = fromWire m.toWire := by
        simp [PermissionManager.perform, toJson, hwritten, fromJson, hread]
      intro key
      rw [hreloaded, grants_from_wire, decisions_from_wire m fun hnone =>
        (h key).grant_eq_none hnone, decided, List.append_nil]
      exact h key

/-- So does a run. -/
theorem Sound.run (h : Sound now log m) {calls : List (UInt64 × Op)}
    (hclock : (now :: calls.map Prod.fst ++ [now']).Pairwise (· ≤ ·))
    (hallowed : (machine json).AllowedRun m calls) :
    Sound now' (log ++ calls.flatMap decided) ((machine json).run m calls) := by
  induction calls generalizing now log m with
  | nil =>
      have hnow : now ≤ now' := by simpa using hclock
      intro key
      rw [List.flatMap_nil, List.append_nil]
      exact (h key).mono hnow
  | cons call calls ih =>
      rw [List.map_cons, List.cons_append, List.cons_append, List.pairwise_cons] at hclock
      have hcall : Sound call.1 log m := fun key =>
        (h key).mono (hclock.1 call.1 List.mem_cons_self)
      rw [List.flatMap_cons, ← List.append_assoc]
      exact ih (hcall.perform rfl hallowed.1) hclock.2 hallowed.2

/-- A call that neither decides nor asks. -/
def Maintenance : Op → Prop
  | .purgeExpired | .reload => True
  | _ => False

/-- After any calls, at readings of the clock that do not decrease, a check gives the answer of the
last decision about its key, and it gives the same answer without a purge or a reload among them. -/
theorem check_run (json : Json) {calls : List (UInt64 × Op)} {now : UInt64}
    (hclock : (calls.map Prod.fst ++ [now]).Pairwise (· ≤ ·))
    (hallowed : (machine json).AllowedRun default calls) (profile : ProfileId) (origin : Text)
    (permission : Permission) :
    ((machine json).run default calls).check profile origin permission now =
        answer now (lastOf ⟨profile, origin, permission⟩ (calls.flatMap decided)) ∧
      ∀ before call after, calls = before ++ call :: after → Maintenance call.2 →
        (machine json).AllowedRun default (before ++ after) →
          ((machine json).run default (before ++ after)).check profile origin permission now =
            ((machine json).run default calls).check profile origin permission now := by
  have hcheck : ∀ {calls : List (UInt64 × Op)},
      (calls.map Prod.fst ++ [now]).Pairwise (· ≤ ·) →
        (machine json).AllowedRun default calls →
          ((machine json).run default calls).check profile origin permission now =
            answer now (lastOf ⟨profile, origin, permission⟩ (calls.flatMap decided)) := by
    intro calls hclock hallowed
    refine check_of_agree ((sound_default : Sound 0 [] default).run ?_ hallowed _)
    exact List.pairwise_cons.mpr ⟨fun _ _ => UInt64.zero_le, hclock⟩
  refine ⟨hcheck hclock hallowed, ?_⟩
  rintro before ⟨tick, op⟩ after rfl hmaintenance hshorter
  have hdecided : decided (tick, op) = [] := by
    cases op with
    | purgeExpired | reload => rfl
    | set _ _ _ _ | grantFor _ _ _ | revoke _ _ _ | request _ _ => cases hmaintenance
  rw [hcheck hclock hallowed, hcheck ?_ hshorter, List.flatMap_append, List.flatMap_append,
    List.flatMap_cons, hdecided, List.nil_append]
  refine hclock.sublist ?_
  exact List.Sublist.append_right
    (((List.sublist_cons_self _ _).append_left before).map Prod.fst) _

/-- A camera for a minute and no microphone, reloaded before the minute is over and purged after
that. -/
def callPermissions : List (UInt64 × Op) :=
  [(100, .grantFor 1 ⟨"https://a.example", .camera, "call"⟩ (some 60)),
    (110, .set 1 "https://a.example" .microphone false), (120, .reload), (160, .purgeExpired)]

/-- What is reloaded at 120. -/
def reloaded : Json :=
  .printed (((default.grantFor 1 ⟨"https://a.example", .camera, "call"⟩ (some 60) 100).2).set 1
    "https://a.example" .microphone false).toWire

/-- A run of decisions with a purge and a reload in it. -/
theorem call_check_run :
    ((machine reloaded).run default callPermissions).check 1 "https://a.example" .camera 160 =
        answer 160 (lastOf ⟨1, "https://a.example", .camera⟩ (callPermissions.flatMap decided)) ∧
      ∀ before call after, callPermissions = before ++ call :: after → Maintenance call.2 →
        (machine reloaded).AllowedRun default (before ++ after) →
          ((machine reloaded).run default (before ++ after)).check 1 "https://a.example" .camera
              160 =
            ((machine reloaded).run default callPermissions).check 1 "https://a.example" .camera
              160 := by
  refine check_run reloaded (by decide) ?_ 1 "https://a.example" .camera
  exact ⟨nofun, nofun, fun _ => Json.printed_reads_back _, nofun, trivial⟩

end PermissionManager

end BrowsAI.Permissions
