import AiterCommerce.Server.Config

namespace AiterCommerce.Guarantees.Settings

open AiterCommerce.Server

def razorpayVariables : List String :=
  ["RAZORPAY_KEY_ID", "RAZORPAY_KEY_SECRET", "RAZORPAY_MODE", "RAZORPAY_BASE_URL",
    "RAZORPAY_WEBHOOK_SECRET"]

def Names (e : RazorpayError) (name : String) : Prop :=
  ∃ rest, e = .config (name ++ " " ++ rest)

def Same : Except RazorpayError RazorpayConfig → Except RazorpayError RazorpayConfig → Prop
  | .ok a, .ok b => a = b
  | .error e, .error e' => ∃ v ∈ razorpayVariables, Names e v ∧ Names e' v
  | _, _ => False

/-- Without a file, loading and then building gives what the environment gives. -/
def Agree (path : String) (env : Env) : Prop :=
  ∃ config, load path (.error .notFound) env = .ok config ∧
    Same config.razorpay.toRazorpayConfig (RazorpayConfig.fromEnv env)

def Unicode (env : Env) (name : String) : Prop := env name ≠ .error .notUnicode

/-- Nobody gets to see that the mode or the base URL is not text: both are, or an
earlier check fails. -/
def Seen (env : Env) : Prop :=
  (Unicode env "RAZORPAY_MODE" ∧ Unicode env "RAZORPAY_BASE_URL") ∨
    (env "RAZORPAY_KEY_ID").toOption = none ∨ (env "RAZORPAY_KEY_SECRET").toOption = none ∨
    ∃ value, env "RAZORPAY_MODE" = .ok value ∧ value ≠ "sandbox" ∧ value ≠ "live"

def settingsOf (env : Env) : RazorpaySettings where
  keyId := (env "RAZORPAY_KEY_ID").toOption
  keySecret := (env "RAZORPAY_KEY_SECRET").toOption
  mode := (env "RAZORPAY_MODE").toOption
  baseUrl := (env "RAZORPAY_BASE_URL").toOption
  webhookSecret := (env "RAZORPAY_WEBHOOK_SECRET").toOption

theorem resolve_empty (env : String → Option String) (key : String) : resolve env ∅ key = env key := by
  simp [resolve]

theorem resolvePort_empty (env : String → Option String) (path : String) :
    ∃ port, resolvePort env ∅ path = .ok port := by
  rw [resolvePort]
  cases env "PORT" with
  | some raw => exact ⟨_, rfl⟩
  | none => exact ⟨defaultPort, by simp⟩

theorem load_noFile (path : String) (env : Env) :
    ∃ port, load path (.error .notFound) env = .ok ⟨path, false, port, settingsOf env⟩ := by
  obtain ⟨port, hp⟩ := resolvePort_empty (fun key => (env key).toOption) path
  refine ⟨port, ?_⟩
  simp only [load, loadFromWith, fileLayer, bind, Except.bind, hp, resolve_empty]
  rfl

theorem agree_iff_same {path : String} {env : Env} :
    Agree path env ↔ Same (settingsOf env).toRazorpayConfig (RazorpayConfig.fromEnv env) := by
  obtain ⟨port, hp⟩ := load_noFile path env
  rw [Agree, hp]
  simp only [Except.ok.injEq, exists_eq_left']

theorem fromEnv_error_iff {value : String} :
    (∃ e, RazorpayMode.fromEnv value = .error e) ↔ value ≠ "sandbox" ∧ value ≠ "live" := by
  rw [RazorpayMode.fromEnv]
  split
  · simp_all
  · split <;> simp_all

theorem names_mode {value : String} {e : RazorpayError} (h : RazorpayMode.fromEnv value = .error e) :
    Names e "RAZORPAY_MODE" := by
  rw [RazorpayMode.fromEnv] at h
  split at h
  · cases h
  · split at h
    · cases h
    · cases h
      exact ⟨"must be 'sandbox' or 'live', got '" ++ value ++ "'", by
        simp only [← String.append_assoc]; rfl⟩

section Keys

variable {env : Env}

theorem same_of_keyId (h : (env "RAZORPAY_KEY_ID").toOption = none) :
    Same (settingsOf env).toRazorpayConfig (RazorpayConfig.fromEnv env) := by
  have hl : (settingsOf env).toRazorpayConfig = .error (.config "RAZORPAY_KEY_ID is required") := by
    simp only [RazorpaySettings.toRazorpayConfig, settingsOf, h]
    rfl
  have hr : RazorpayConfig.fromEnv env = .error (.config "RAZORPAY_KEY_ID is required") := by
    cases hk : env "RAZORPAY_KEY_ID" with
    | ok keyId => simp [hk, Except.toOption] at h
    | error e => simp only [RazorpayConfig.fromEnv, readEnv, hk]; rfl
  have hn : Names (.config "RAZORPAY_KEY_ID is required") "RAZORPAY_KEY_ID" :=
    ⟨"is required", by decide⟩
  rw [hl, hr]
  exact ⟨_, by simp [razorpayVariables], hn, hn⟩

theorem same_of_keySecret {keyId : String} (hk : env "RAZORPAY_KEY_ID" = .ok keyId)
    (h : (env "RAZORPAY_KEY_SECRET").toOption = none) :
    Same (settingsOf env).toRazorpayConfig (RazorpayConfig.fromEnv env) := by
  have hl : (settingsOf env).toRazorpayConfig =
      .error (.config "RAZORPAY_KEY_SECRET is required") := by
    simp only [RazorpaySettings.toRazorpayConfig, settingsOf, hk, h]
    rfl
  have hr : RazorpayConfig.fromEnv env = .error (.config "RAZORPAY_KEY_SECRET is required") := by
    cases hs : env "RAZORPAY_KEY_SECRET" with
    | ok keySecret => simp [hs, Except.toOption] at h
    | error e => simp only [RazorpayConfig.fromEnv, readEnv, hk, hs]; rfl
  have hn : Names (.config "RAZORPAY_KEY_SECRET is required") "RAZORPAY_KEY_SECRET" :=
    ⟨"is required", by decide⟩
  rw [hl, hr]
  exact ⟨_, by simp [razorpayVariables], hn, hn⟩

variable {keyId keySecret : String}

theorem toRazorpayConfig_of_keys (hk : env "RAZORPAY_KEY_ID" = .ok keyId)
    (hs : env "RAZORPAY_KEY_SECRET" = .ok keySecret) :
    (settingsOf env).toRazorpayConfig =
      ((env "RAZORPAY_MODE").toOption.elim (.ok .sandbox) RazorpayMode.fromEnv).map (fun mode =>
        ⟨keyId, keySecret, mode, (env "RAZORPAY_BASE_URL").toOption.getD defaultBaseUrl,
          (env "RAZORPAY_WEBHOOK_SECRET").toOption⟩) := by
  simp only [RazorpaySettings.toRazorpayConfig, settingsOf, hk, hs]
  rfl

theorem fromEnv_of_keys (hk : env "RAZORPAY_KEY_ID" = .ok keyId)
    (hs : env "RAZORPAY_KEY_SECRET" = .ok keySecret) :
    RazorpayConfig.fromEnv env = (do
      let mode ← optionalEnv env "RAZORPAY_MODE" .sandbox RazorpayMode.fromEnv
      let baseUrl ← optionalEnv env "RAZORPAY_BASE_URL" defaultBaseUrl .ok
      return ⟨keyId, keySecret, mode, baseUrl, (env "RAZORPAY_WEBHOOK_SECRET").toOption⟩) := by
  simp only [RazorpayConfig.fromEnv, readEnv, hk, hs]
  rfl

theorem optionalEnv_of_unicode {α : Type} {name : String} (h : Unicode env name) (default : α)
    (read : String → Except RazorpayError α) :
    optionalEnv env name default read = (env name).toOption.elim (.ok default) read := by
  rw [optionalEnv]
  cases hn : env name with
  | ok value => rfl
  | error e =>
      cases e with
      | notPresent => rfl
      | notUnicode => exact absurd hn h

theorem optionalEnv_of_notUnicode {α : Type} {name : String} (h : ¬ Unicode env name) (default : α)
    (read : String → Except RazorpayError α) :
    optionalEnv env name default read =
      .error (.config (name ++ " must be a valid UTF-8 string")) := by
  rw [optionalEnv, not_not.mp h]

/-- With both keys the two ways agree exactly when the mode and the base URL are
text, or the mode is a text that both refuse. -/
theorem same_of_keys (hk : env "RAZORPAY_KEY_ID" = .ok keyId)
    (hs : env "RAZORPAY_KEY_SECRET" = .ok keySecret) :
    Same (settingsOf env).toRazorpayConfig (RazorpayConfig.fromEnv env) ↔
      (Unicode env "RAZORPAY_MODE" ∧ Unicode env "RAZORPAY_BASE_URL") ∨
        ∃ value, env "RAZORPAY_MODE" = .ok value ∧ value ≠ "sandbox" ∧ value ≠ "live" := by
  rw [toRazorpayConfig_of_keys hk hs, fromEnv_of_keys hk hs]
  by_cases hm : Unicode env "RAZORPAY_MODE"
  · rw [optionalEnv_of_unicode hm]
    cases hmode : (env "RAZORPAY_MODE").toOption.elim (.ok .sandbox) RazorpayMode.fromEnv with
    | error e =>
        obtain ⟨value, hv, he⟩ : ∃ value, env "RAZORPAY_MODE" = .ok value ∧
            RazorpayMode.fromEnv value = .error e := by
          cases hv : env "RAZORPAY_MODE" with
          | ok value => exact ⟨value, rfl, by simpa [hv, Except.toOption] using hmode⟩
          | error x => simp [hv, Except.toOption] at hmode
        refine iff_of_true ?_ (.inr ⟨value, hv, fromEnv_error_iff.mp ⟨e, he⟩⟩)
        exact ⟨_, by simp [razorpayVariables], names_mode he, names_mode he⟩
    | ok mode =>
        have hvalid : ¬ ∃ value, env "RAZORPAY_MODE" = .ok value ∧
            value ≠ "sandbox" ∧ value ≠ "live" := by
          rintro ⟨value, hv, hne⟩
          obtain ⟨e, he⟩ := fromEnv_error_iff.mpr hne
          simp [hv, Except.toOption, he] at hmode
        by_cases hb : Unicode env "RAZORPAY_BASE_URL"
        · refine iff_of_true ?_ (.inl ⟨hm, hb⟩)
          rw [optionalEnv_of_unicode hb]
          cases (env "RAZORPAY_BASE_URL").toOption <;> rfl
        · rw [optionalEnv_of_notUnicode hb]
          exact iff_of_false (fun h => h) (not_or.mpr ⟨fun h => hb h.2, hvalid⟩)
  · rw [optionalEnv_of_notUnicode hm]
    have hmode : (env "RAZORPAY_MODE").toOption = none := by rw [not_not.mp hm]; rfl
    rw [hmode]
    refine iff_of_false (fun h => h) (not_or.mpr ⟨fun h => hm h.1, ?_⟩)
    rintro ⟨value, hv, -⟩
    exact hm (by rw [Unicode, hv]; simp)

end Keys

/-- The two ways to configure the payments agree on an environment exactly when
no mode and no base URL that is not text gets to be read. -/
theorem agree_iff_seen (path : String) (env : Env) : Agree path env ↔ Seen env := by
  rw [agree_iff_same, Seen]
  cases hk : env "RAZORPAY_KEY_ID" with
  | error e =>
      have hnone : (env "RAZORPAY_KEY_ID").toOption = none := by rw [hk]; rfl
      exact iff_of_true (same_of_keyId hnone) (.inr (.inl rfl))
  | ok keyId =>
      cases hs : env "RAZORPAY_KEY_SECRET" with
      | error e =>
          have hnone : (env "RAZORPAY_KEY_SECRET").toOption = none := by rw [hs]; rfl
          exact iff_of_true (same_of_keySecret hk hnone) (.inr (.inr (.inl rfl)))
      | ok keySecret =>
          rw [same_of_keys hk hs]
          simp [Except.toOption]

def unreadableMode : Env := fun name =>
  if name = "RAZORPAY_KEY_ID" then .ok "rzp_test_1"
  else if name = "RAZORPAY_KEY_SECRET" then .ok "key-secret"
  else if name = "RAZORPAY_MODE" then .error .notUnicode
  else .error .notPresent

/-- Loaded, the unreadable mode is the sandbox; read directly, it is refused. -/
theorem modes_disagree : ¬ ∀ path env, Agree path env := by
  intro h
  obtain ⟨config, hc, hsame⟩ := h "aiter.env" unreadableMode
  obtain ⟨port, hp⟩ := load_noFile "aiter.env" unreadableMode
  obtain rfl := Except.ok.inj (hp.symm.trans hc)
  exact hsame

end AiterCommerce.Guarantees.Settings
