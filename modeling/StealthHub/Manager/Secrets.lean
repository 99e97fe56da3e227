import StealthHub.Manager.Delivered
import StealthHub.Manager.Output

set_option autoImplicit false

namespace StealthHub.Manager

open Text

variable {action : Action} {values values' : List String} {snapshot : Snapshot}

def plainValues (entries : List (String × Field)) : List String :=
  (entries.filter fun entry ↦ !entry.2.secret).map Prod.fst

def secretValues (entries : List (String × Field)) : List String :=
  (entries.filter fun entry ↦ entry.2.secret).map Prod.fst

theorem foldl_give (entries : List (String × Field)) (invocation : Invocation) :
    (entries.foldl Invocation.give invocation).args = invocation.args ++ plainValues entries ∧
      (entries.foldl Invocation.give invocation).stdin =
        ((secretValues entries).getLast?.map (· ++ "\n")).or invocation.stdin := by
  induction entries generalizing invocation with
  | nil => simp [plainValues, secretValues]
  | cons entry entries ih =>
    rw [List.foldl_cons, (ih _).1, (ih _).2]
    cases hsecret : entry.2.secret with
    | true =>
      have hplain : plainValues (entry :: entries) = plainValues entries := by
        simp [plainValues, hsecret]
      have hcons : secretValues (entry :: entries) = entry.1 :: secretValues entries := by
        simp [secretValues, hsecret]
      rw [hplain, hcons, List.getLast?_cons, Invocation.give, if_pos hsecret]
      refine ⟨rfl, ?_⟩
      cases (secretValues entries).getLast? with
      | none => rfl
      | some last => rfl
    | false => simp [Invocation.give, hsecret, plainValues, secretValues]

theorem invocation_args (action : Action) (values : List String) :
    (action.invocation values).args =
      ["--operation", action.verb] ++ plainValues (values.zip action.fields) ++
        action.confirmation.toList := by
  unfold Action.invocation
  cases action.confirmation with
  | none => simp [Invocation.confirm, foldl_give]
  | some confirmation => simp [Invocation.confirm, foldl_give]

theorem invocation_stdin (action : Action) (values : List String) :
    (action.invocation values).stdin =
      (secretValues (values.zip action.fields)).getLast?.map (· ++ "\n") := by
  unfold Action.invocation
  cases action.confirmation with
  | none => simp [Invocation.confirm, foldl_give]
  | some confirmation => simp [Invocation.confirm, foldl_give]

theorem foldl_give_sensitive (entries : List (String × Field)) (invocation : Invocation) :
    (entries.foldl Invocation.give invocation).sensitive = invocation.sensitive := by
  induction entries generalizing invocation with
  | nil => rfl
  | cons entry entries ih =>
    rw [List.foldl_cons, ih, Invocation.give]
    split_ifs <;> rfl

theorem invocation_sensitive (action : Action) (values : List String) :
    (action.invocation values).sensitive = action.sensitive := by
  unfold Action.invocation
  cases action.confirmation with
  | none => simp [Invocation.confirm, foldl_give_sensitive]
  | some confirmation => simp [Invocation.confirm, foldl_give_sensitive]

/-- Two fillings of a form that differ in its secrets alone. -/
def AgreeOffSecrets (fields : List Field) (values values' : List String) : Prop :=
  List.Forall₂ (fun entry entry' ↦ entry.2 = entry'.2 ∧ (entry.2.secret = false → entry.1 = entry'.1))
    (values.zip fields) (values'.zip fields)

theorem plainValues_congr {entries entries' : List (String × Field)}
    (h : List.Forall₂ (fun entry entry' ↦
      entry.2 = entry'.2 ∧ (entry.2.secret = false → entry.1 = entry'.1)) entries entries') :
    plainValues entries = plainValues entries' := by
  induction h with
  | nil => rfl
  | @cons entry entry' entries entries' hentry _ ih =>
    obtain ⟨hfield, hvalue⟩ := hentry
    unfold plainValues at ih ⊢
    cases hsecret : entry.2.secret with
    | true =>
      have hsecret' : entry'.2.secret = true := hfield ▸ hsecret
      simpa [hsecret, hsecret'] using ih
    | false =>
      have hsecret' : entry'.2.secret = false := hfield ▸ hsecret
      simpa [hsecret, hsecret', hvalue hsecret] using ih

/-- A word that a command line can hold. -/
structure PlainWord (word : String) : Prop where
  filled : word ≠ ""
  bounded : len word ≤ 256
  plain : ∀ c ∈ word.toList, isControl c = false

instance (word : String) : Decidable (PlainWord word) :=
  decidable_of_iff (word ≠ "" ∧ len word ≤ 256 ∧ word.toList.all (!isControl ·) = true)
    ⟨fun h ↦ ⟨h.1, h.2.1, by simpa using h.2.2⟩,
      fun h ↦ ⟨h.filled, h.bounded, by simpa using h.plain⟩⟩

theorem initial_words : ∀ screen ∈ SCREENS, ∀ action ∈ actions screen .initial,
    PlainWord action.verb ∧ ∀ word ∈ action.confirmation, PlainWord word := by
  decide

theorem Offered.words (h : Offered snapshot action) :
    PlainWord action.verb ∧ ∀ word ∈ action.confirmation, PlainWord word := by
  obtain ⟨action', ⟨screen, hscreen, haction'⟩, heq⟩ := h.skeleton
  have hverb : action'.skeleton.verb = action.skeleton.verb := congrArg Action.verb heq
  have hconfirmation : action'.skeleton.confirmation = action.skeleton.confirmation :=
    congrArg Action.confirmation heq
  show PlainWord action.skeleton.verb ∧ ∀ word ∈ action.skeleton.confirmation, PlainWord word
  rw [← hverb, ← hconfirmation]
  exact initial_words screen hscreen action' haction'

theorem secretValues_length (values : List String) (fields : List Field) :
    (secretValues (values.zip fields)).length ≤ (fields.map (·.secret)).count true := by
  induction fields generalizing values with
  | nil => simp [secretValues]
  | cons field fields ih =>
    cases values with
    | nil => simp [secretValues]
    | cons value values =>
      have hih := ih values
      unfold secretValues at hih ⊢
      cases hsecret : field.secret with
      | true => simpa [hsecret] using hih
      | false => simpa [hsecret] using hih

/-- The command line of an operation is the same whatever its secrets are, of words without a
control character; a secret is passed as one line of the standard input. -/
theorem secrets_stay_out (snapshot : Snapshot) (action : Action) (values : List String)
    (hoffered : Offered snapshot action) (hvalid : validate action values = .ok ()) :
    (∀ values', AgreeOffSecrets action.fields values values' →
      (action.invocation values).args = (action.invocation values').args) ∧
    (∀ arg ∈ (action.invocation values).args, PlainWord arg) ∧
    (∀ secret field, (secret, field) ∈ values.zip action.fields → field.secret = true →
      (action.invocation values).stdin = some (secret ++ "\n") ∧ '\n' ∉ secret.toList) := by
  have hpassed := validate_eq_ok.mp hvalid
  refine ⟨fun values' hagree ↦ ?_, fun arg harg ↦ ?_, fun secret field hmem hsecret ↦ ?_⟩
  · rw [invocation_args, invocation_args, plainValues_congr hagree]
  · rw [invocation_args, List.append_assoc] at harg
    rcases List.mem_append.mp harg with hstart | hrest
    · simp only [List.mem_cons, List.not_mem_nil, or_false] at hstart
      rcases hstart with rfl | rfl
      · decide
      · exact hoffered.words.1
    · rcases List.mem_append.mp hrest with hvalue | hword
      · obtain ⟨entry, hentry, rfl⟩ := List.mem_map.mp hvalue
        obtain ⟨hzip, hplain⟩ := List.mem_filter.mp hentry
        have hpasses := hpassed.passes hzip
        have hbound : entry.2.bound = 256 := by
          rw [Field.bound, if_neg]
          simpa using hplain
        exact ⟨hpasses.filled, hbound ▸ hpasses.bounded, hpasses.plain⟩
      · exact hoffered.words.2 arg (Option.mem_toList.mp hword)
  · have hsecretValue : secret ∈ secretValues (values.zip action.fields) :=
      List.mem_map.mpr ⟨(secret, field), List.mem_filter.mpr ⟨hmem, hsecret⟩, rfl⟩
    have hone := (secretValues_length values action.fields).trans hoffered.wellFormed.secret
    have hlength : (secretValues (values.zip action.fields)).length = 1 := by
      have hpos := List.length_pos_of_mem hsecretValue
      omega
    obtain ⟨only, honly⟩ := List.length_eq_one_iff.mp hlength
    rw [honly, List.mem_singleton] at hsecretValue
    rw [invocation_stdin, honly, hsecretValue]
    exact ⟨rfl, hsecretValue ▸ (hpassed.passes hmem).oneLine⟩

def storeAction : Action :=
  ⟨"Store / rotate root-only reference", "secret-store",
    [Manager.field "Reference name", secretField "Secret value"], some "STORE", true⟩

theorem secrets_stay_out_store :
    (∀ values', AgreeOffSecrets storeAction.fields ["cert.pem", "s3cret"] values' →
      (storeAction.invocation ["cert.pem", "s3cret"]).args = (storeAction.invocation values').args) ∧
    (∀ arg ∈ (storeAction.invocation ["cert.pem", "s3cret"]).args, PlainWord arg) ∧
    (∀ secret field, (secret, field) ∈ ["cert.pem", "s3cret"].zip storeAction.fields →
      field.secret = true →
        (storeAction.invocation ["cert.pem", "s3cret"]).stdin = some (secret ++ "\n") ∧
          '\n' ∉ secret.toList) :=
  secrets_stay_out .initial storeAction ["cert.pem", "s3cret"] ⟨"Secrets", by decide, by decide⟩ rfl

theorem initial_sensitive : ∀ screen ∈ SCREENS, ∀ action ∈ actions screen .initial,
    (∃ field ∈ action.fields, field.secret = true) → action.sensitive = true := by
  decide

theorem Offered.sensitive (h : Offered snapshot action)
    (hsecret : ∃ field ∈ action.fields, field.secret = true) : action.sensitive = true := by
  obtain ⟨action', ⟨screen, hscreen, haction'⟩, heq⟩ := h.skeleton
  have hsame : action'.skeleton.sensitive = action.skeleton.sensitive :=
    congrArg Action.sensitive heq
  have hfields : action'.skeleton.fields = action.skeleton.fields := congrArg Action.fields heq
  show action.skeleton.sensitive = true
  rw [← hsame]
  refine initial_sensitive screen hscreen action' haction' ?_
  obtain ⟨field, hfield, hsecret⟩ := hsecret
  have hmem : { field with choices := [] } ∈ action.skeleton.fields :=
    List.mem_map.mpr ⟨field, hfield, rfl⟩
  rw [← hfields] at hmem
  obtain ⟨field', hfield', heq'⟩ := List.mem_map.mp hmem
  exact ⟨field', hfield', (congrArg Field.secret heq').trans hsecret⟩

theorem report_withheld (outcome : Outcome) :
    report true outcome.withheld = report true outcome := by
  cases outcome with
  | unavailable message => rfl
  | timedOut => rfl
  | exited code out err =>
    simp only [Outcome.withheld, report, if_true]
    by_cases hcode : code = some 0
    · simp [hcode]
    · simp [hcode]

theorem panelUrl_congr (hoffered : Offered snapshot action) (hvalid : Validated action values)
    (hvalid' : Validated action values') (hagree : AgreeOffSecrets action.fields values values') :
    panelUrl action values = panelUrl action values' := by
  unfold panelUrl
  split_ifs with hverb
  · have hfields : action.fields = httpsFields := by
      rcases hoffered.shape with ⟨-, hne⟩ | ⟨-, -, hmodule⟩ | ⟨-, hlogs⟩ | ⟨_, -, -, -, hne⟩ |
        ⟨_, _, -, -, hne⟩ | ⟨hfields, -⟩
      · exact absurd hverb hne
      · rw [hverb] at hmodule
        exact absurd hmodule (by decide)
      · rw [hverb] at hlogs
        exact absurd hlogs (by decide)
      · exact absurd hverb hne
      · exact absurd hverb hne
      · exact hfields
    obtain ⟨zone, host, email, ip, token, rfl⟩ := hvalid.five hfields
    obtain ⟨zone', host', email', ip', token', rfl⟩ := hvalid'.five hfields
    rw [AgreeOffSecrets, hfields] at hagree
    have hhost : host = host' := by
      cases hagree with
      | cons _ hrest =>
        cases hrest with
        | cons hhost _ => exact hhost.2 rfl
    rw [hhost]
    rfl
  · rfl

/-- What is reported of an operation that was given a secret depends on the secret by no more than
whether the command succeeds. -/
theorem secret_not_reported (snapshot : Snapshot) (action : Action) (values values' : List String)
    (process : Invocation → Outcome) (hoffered : Offered snapshot action)
    (hsecret : ∃ field ∈ action.fields, field.secret = true)
    (hvalid : validate action values = .ok ()) (hvalid' : validate action values' = .ok ())
    (hagree : AgreeOffSecrets action.fields values values')
    (hends : (process (action.invocation values)).withheld =
      (process (action.invocation values')).withheld) :
    execute (fun invocation ↦ report invocation.sensitive (process invocation)) action values =
      execute (fun invocation ↦ report invocation.sensitive (process invocation)) action values' := by
  have hsensitive (values : List String) : (action.invocation values).sensitive = true := by
    rw [invocation_sensitive]
    exact hoffered.sensitive hsecret
  have hreport : report true (process (action.invocation values)) =
      report true (process (action.invocation values')) := by
    rw [← report_withheld, hends, report_withheld]
  have hurl := panelUrl_congr hoffered (validate_eq_ok.mp hvalid) (validate_eq_ok.mp hvalid') hagree
  simp only [execute, prepare, hvalid, hvalid', hurl, Except.ok_bind]
  cases panelUrl action values' with
  | error fault => rfl
  | ok url => simp only [Except.ok_bind, pure_bind, hsensitive, hreport]

def echo (invocation : Invocation) : Outcome := .exited (some 0) (invocation.stdin.getD "") ""

theorem secret_not_reported_store :
    execute (fun invocation ↦ report invocation.sensitive (echo invocation)) storeAction
        ["cert.pem", "s3cret"] =
      execute (fun invocation ↦ report invocation.sensitive (echo invocation)) storeAction
        ["cert.pem", "other"] :=
  secret_not_reported .initial storeAction ["cert.pem", "s3cret"] ["cert.pem", "other"] echo
    ⟨"Secrets", by decide, by decide⟩ (by decide) rfl rfl
    (.cons ⟨rfl, fun _ ↦ rfl⟩ (.cons ⟨rfl, fun hsecret ↦ by cases hsecret⟩ .nil)) rfl

end StealthHub.Manager
