/-
**What the cache knows of users.**

The first call with a token takes the record of the user from the directory. Later ones take the
number of the user from the cache and go on by it, and so root, who is known without asking, is not
the same before and after, if the directory has a record of its own under that number.

* `KnowsUsers`: the cache says of users what the directory says; `Abides`: it goes on doing so;
* `ensures_userInformationById`, `ensures_userInformation`: the user whom a call tells of;
* `abides_of_event`, `abides_of_run`: any calls about users;
* `userInformation_eq_iff`: when two calls with one token tell the same.
-/

import BookingAccess.Proofs.Cache.Groups

namespace BookingAccess

open Service OrderedMap

/-! ### A cache that says the same -/

/-- Every user is filed under the user's own number. -/
def Directory.FilesUsers (directory : Directory) : Prop :=
  ∀ (id : UserId) (user : User), directory.users[id]? = some user → user.id = id

namespace Directory.FilesUsers

theorem empty : Directory.empty.FilesUsers :=
  fun _ _ held => nomatch Std.ExtTreeMap.getElem?_empty.symm.trans held

/-- So users are filed as the directory is told of them. -/
theorem addUser {directory : Directory} (filed : directory.FilesUsers) (user : User) :
    (directory.addUser user).FilesUsers := by
  intro id other held
  change (directory.users.insert user.id user)[id]? = some other at held
  rw [lookup_insert] at held
  split at held
  · obtain rfl := Option.some.inj held
    assumption
  · exact filed id other held

end Directory.FilesUsers

/-- The token is one of root, of whom the directory has another record than the built-in one. -/
def Directory.ShadowsRoot (directory : Directory) (token : AccessToken) : Prop :=
  directory.tokens[token]? = some rootUserId ∧ directory.users[rootUserId]? ≠ some .root

theorem Directory.userById_eq_ok_iff {directory : Directory} {id : UserId} {user : User} :
    directory.userById id = .ok user ↔ directory.users[id]? = some user := by
  unfold userById
  cases directory.users[id]? <;> simp

/-- The token belongs to the user whom it is answered with. -/
theorem Directory.userOfToken_eq_ok {directory : Directory} {token : AccessToken} {user : User}
    (filed : directory.FilesUsers) (answer : directory.userOfToken token = .ok user) :
    directory.tokens[token]? = some user.id ∧ directory.users[user.id]? = some user := by
  unfold userOfToken at answer
  split at answer
  · rename_i id belongs
    have held := userById_eq_ok_iff.mp answer
    rw [filed id user held]
    exact ⟨belongs, held⟩
  · exact nomatch answer

/-- What the cache says of users and of their tokens, the directory says too. -/
structure KnowsUsers (cache : Cache) (directory : Directory) : Prop where
  filed : directory.FilesUsers
  /-- The record of a user, or that there is none. -/
  records : ∀ {id : UserId} {found}, cache.users[id]? = some found → directory.users[id]? = found
  numbers : ∀ {token : AccessToken} {id}, cache.userIdOfToken[token]? = some id →
    directory.tokens[token]? = some id

namespace KnowsUsers

variable {cache changed : Cache} {directory : Directory}

/-- A cache that knows no user says nothing wrong. -/
theorem ofClear (filed : directory.FilesUsers) : KnowsUsers cache.clear directory where
  filed := filed
  records found := nomatch Std.ExtTreeMap.getElem?_empty.symm.trans found
  numbers found := nomatch Std.ExtTreeMap.getElem?_empty.symm.trans found

/-- Other parts of the cache do not matter. -/
theorem congr (knows : KnowsUsers cache directory) (users : changed.users = cache.users)
    (tokens : changed.userIdOfToken = cache.userIdOfToken) : KnowsUsers changed directory where
  filed := knows.filed
  records found := knows.records (users ▸ found)
  numbers found := knows.numbers (tokens ▸ found)

/-- What was looked up is kept. -/
theorem putRecord (knows : KnowsUsers cache directory) (id : UserId) :
    KnowsUsers { cache with users := cache.users.insert id directory.users[id]? } directory where
  filed := knows.filed
  records {other found} held := by
    change (cache.users.insert id directory.users[id]?)[other]? = some found at held
    rw [lookup_insert] at held
    split at held
    · subst other
      exact Option.some.inj held
    · exact knows.records held
  numbers := knows.numbers

theorem putNumber (knows : KnowsUsers cache directory) {token : AccessToken} {id : UserId}
    (belongs : directory.tokens[token]? = some id) :
    KnowsUsers (cache.putUserIdOfToken token id) directory where
  filed := knows.filed
  records := knows.records
  numbers {other number} found := by
    change (cache.userIdOfToken.insert token id)[other]? = some number at found
    rw [lookup_insert] at found
    split at found
    · subst other
      exact belongs.trans found
    · exact knows.numbers found

end KnowsUsers

/-- The cache says of users what the directory of the service says. -/
def Service.KnowsItsUsers (service : Service) : Prop := KnowsUsers service.cache service.directory

/-- The directory is the same, and the cache goes on saying of users what it says. -/
structure Abides (before after : Service) : Prop where
  directory : after.directory = before.directory
  knows : before.KnowsItsUsers → after.KnowsItsUsers

variable {α : Type} {before after service : Service} {token : AccessToken}

namespace Abides

instance : IsPreorder Service Abides where
  refl _ := ⟨rfl, fun knows => knows⟩
  trans _ _ _ first second := ⟨second.directory.trans first.directory, second.knows ∘ first.knows⟩

/-- What is known of users does not change. -/
theorem ofSame (directory : after.directory = before.directory)
    (users : after.cache.users = before.cache.users)
    (tokens : after.cache.userIdOfToken = before.cache.userIdOfToken) : Abides before after where
  directory := directory
  knows knows := by
    unfold Service.KnowsItsUsers
    rw [directory]
    exact KnowsUsers.congr knows users tokens

theorem ofCache (directory : after.directory = before.directory)
    (cache : after.cache = before.cache) : Abides before after :=
  ofSame directory (congrArg _ cache) (congrArg _ cache)

theorem lookup (kind : DirectoryCall) (answer : Directory → Except DirectoryError α) :
    Keeps Abides (DirectoryClient.read kind answer) := fun _ =>
  (ensures_lookup kind answer).mono (fun _ _ ⟨_, cache, directory⟩ => ofCache directory cache)
    fun _ _ ⟨_, cache, directory⟩ => ofCache directory cache

/-- An answer that is remembered in another part of the cache. -/
theorem remembered {look : Cache → Option α} {keep : Cache → α → Cache} {load : Action α}
    (users : ∀ cache answer, (keep cache answer).users = cache.users)
    (tokens : ∀ cache answer, (keep cache answer).userIdOfToken = cache.userIdOfToken)
    (loads : Keeps Abides load) : Keeps Abides (remembered look keep load) := by
  unfold Service.remembered
  refine .bind .get fun service => ?_
  split
  · exact .pure
  · exact .bind loads fun answer =>
      .bind (fun _ => ofSame rfl (users _ _) (tokens _ _)) fun _ => .pure

end Abides

/-! ### Users -/

/-- The user whom a number stands for: root is built in, the others are those of the directory. -/
def Directory.HasUser (directory : Directory) (id : UserId) (user : User) : Prop :=
  if id = rootUserId then user = .root else directory.users[id]? = some user

theorem ensures_userInformationById (id : UserId) :
    Ensures (userInformationById id) service
      (fun found after => Abides service after ∧
        (service.KnowsItsUsers → service.directory.HasUser id found))
      (fun _ => Abides service) := by
  unfold userInformationById rememberedUser remembered Directory.HasUser
  by_cases isRoot : id = rootUserId
  · rw [if_pos (beq_iff_eq.mpr isRoot)]
    exact ensures_pure.mpr ⟨refl _, fun _ => if_pos isRoot ▸ rfl⟩
  rw [if_neg (mt beq_iff_eq.mp isRoot)]
  simp only [isRoot, if_false, ensures_bind, ensures_get]
  cases cached : service.cache.users[id]? with
  | some found =>
    simp only [ensures_pure]
    cases found with
    | some found => exact ensures_pure.mpr ⟨refl _, fun knows => knows.records cached⟩
    | none => exact ensures_throw.mpr (refl _)
  | none =>
    simp only [ensures_bind, ensures_outcome]
    -- What is kept is what the directory says.
    have keeps {later : Service} {found : Option User} (cache : later.cache = service.cache)
        (directory : later.directory = service.directory)
        (told : service.directory.users[id]? = found) :
        Abides service { later with
          cache := { later.cache with users := later.cache.users.insert id found } } := by
      refine ⟨directory, fun knows => ?_⟩
      have kept := KnowsUsers.putRecord knows id
      rw [told, ← cache, ← directory] at kept
      exact kept
    refine (ensures_lookup _ _).mono ?_ ?_
    · rintro found later ⟨asked, cache, directory⟩
      have told := Directory.userById_eq_ok_iff.mp asked
      simp only [ensures_pure, ensures_modifyCache]
      exact ⟨keeps cache directory told, fun _ => told⟩
    · rintro fault later ⟨failed, cache, directory⟩
      split
      · rename_i same
        cases same
      · rename_i same
        obtain rfl := Except.error.inj same
        have told : service.directory.users[id]? = none := by
          unfold Directory.userById at failed
          split at failed
          · rcases failed with ⟨⟨⟩⟩ | ⟨⟨⟩⟩
          · assumption
        simp only [ensures_pure, ensures_modifyCache]
        exact ensures_throw.mpr (keeps cache directory told)
      · exact ensures_throw.mpr (.ofCache directory cache)

/-- The user whom a call with the token tells of. Once the number of the user is known the call goes
by it, and before that by the directory. -/
def Service.TellsOf (service : Service) (token : AccessToken) (user : User) : Prop :=
  match service.cache.userIdOfToken[token]? with
  | some id => service.directory.HasUser id user
  | none => service.directory.userOfToken token = .ok user

theorem ensures_userInformation :
    Ensures (userInformation token) service
      (fun user after => Abides service after ∧
        (service.KnowsItsUsers → service.TellsOf token user))
      (fun _ => Abides service) := by
  unfold userInformation Service.TellsOf
  simp only [ensures_bind, ensures_get]
  cases cached : service.cache.userIdOfToken[token]? with
  | some id => exact ensures_userInformationById id
  | none =>
    simp only [ensures_bind, ensures_ofDirectory, ensures_modifyCache, ensures_pure]
    refine (ensures_lookup _ _).mono ?_ ?_
    · rintro user later ⟨asked, cache, directory⟩
      refine ⟨⟨directory, fun knows => ?_⟩, fun _ => asked⟩
      obtain ⟨belongs, held⟩ := Directory.userOfToken_eq_ok knows.filed asked
      have kept := (knows.putNumber belongs).putRecord user.id
      rw [held, ← cache, ← directory] at kept
      exact kept.congr rfl rfl
    · rintro _ _ ⟨-, cache, directory⟩
      exact .ofCache directory cache

/-! ### Calls about users -/

theorem abides_userInformationById (user : UserId) : Keeps Abides (userInformationById user) :=
  fun _ => (ensures_userInformationById user).mono (fun _ _ => And.left) fun _ _ => id

theorem abides_userInformation (token : AccessToken) : Keeps Abides (userInformation token) :=
  fun _ => ensures_userInformation.mono (fun _ _ => And.left) fun _ _ => id

theorem abides_userId (token : AccessToken) : Keeps Abides (userId token) := by
  unfold Service.userId
  refine .bind .get fun service => ?_
  split
  · exact .pure
  · exact .bind (abides_userInformation token) fun _ => .pure

theorem abides_hasUser (user : UserId) : Keeps Abides (hasUser user) := by
  unfold Service.hasUser
  refine .tryCatch (.bind (abides_userInformationById user) fun _ => .pure) fun fault => ?_
  split
  · exact .pure
  · exact .throw

theorem abides_userInformationByPrincipalName (name : String) :
    Keeps Abides (userInformationByPrincipalName name) := by
  unfold userInformationByPrincipalName
  refine .bind (Abides.remembered (fun _ _ => rfl) (fun _ _ => rfl) ?_) fun found => ?_
  · refine .bind (.outcome (Abides.lookup _ _)) fun outcome => ?_
    split
    · exact .pure
    · exact .pure
    · exact .throw
  · split
    · exact abides_userInformationById _
    · exact .throw

theorem abides_assuranceOf (token : AccessToken) : Keeps Abides (assuranceOf token) := by
  unfold Service.assuranceOf
  refine .bind (Abides.remembered (fun _ _ => rfl) (fun _ _ => rfl) ?_) fun _ => .pure
  refine .bind (.outcome (Abides.lookup _ _)) fun outcome => ?_
  split
  · exact .pure
  · exact .pure
  · exact .pure
  · exact .throw

theorem abides_record (event : AuditEvent) : Keeps Abides (record event) :=
  fun _ => .ofSame rfl rfl rfl

/-! Policies ask about groups. -/

theorem abides_groupIdByName (name : String) : Keeps Abides (groupIdByName name) := by
  unfold groupIdByName
  split
  · exact .pure
  · refine .bind .get fun service => ?_
    split
    · exact .pure
    · exact .bind (.ofDirectory (Abides.lookup _ _)) fun _ =>
        .bind (fun _ => .ofSame rfl rfl rfl) fun _ => .pure

theorem abides_groupMembers (group : GroupId) : Keeps Abides (groupMembers group) := by
  unfold Service.groupMembers
  split
  · exact .pure
  · exact Abides.remembered (fun _ _ => rfl) (fun _ _ => rfl)
      (.bind (.ofDirectory (Abides.lookup _ _)) fun _ => .pure)

theorem abides_policyGroup (name : String) : Keeps Abides (policyGroup name) := by
  unfold policyGroup
  refine .bind (.tryCatch (.map (abides_groupIdByName name)) fun fault => ?_) fun found => ?_
  · split
    · exact .pure
    · exact .throw
  · split
    · exact abides_groupMembers _
    · exact .bind (abides_record _) fun _ => .pure

theorem abides_policyGroups (names : List String) : Keeps Abides (policyGroups names) := by
  induction names with
  | nil => exact .pure
  | cons name names ih =>
    exact .bind (abides_policyGroup name) fun _ => .bind ih fun _ => .pure

theorem abides_evaluateFor (policy : Policy) (user : User) (assurance : Assurance) :
    Keeps Abides (evaluateFor policy user assurance) := by
  unfold evaluateFor
  refine .bind (abides_policyGroups _) fun groups => ?_
  split
  · exact .pure
  · exact .throw

theorem abides_evaluate (policy : Policy) (token : AccessToken) :
    Keeps Abides (evaluate policy token) := by
  unfold evaluate
  split
  · exact .pure
  · exact .bind (abides_userInformation token) fun user => .bind (abides_assuranceOf token) fun _ =>
      abides_evaluateFor policy user _

theorem abides_checkPolicies : Keeps Abides checkPolicies := by
  unfold checkPolicies
  exact .bind .get fun _ => .bind (abides_evaluateFor _ _ _) fun _ =>
    .bind (abides_evaluateFor _ _ _) fun _ => .bind (abides_evaluateFor _ _ _) fun _ => .pure

theorem abides_modeOf (token : AccessToken) : Keeps Abides (modeOf token) :=
  .bind .get fun _ => .pure

theorem abides_isAdministrator (token : AccessToken) : Keeps Abides (isAdministrator token) :=
  .bind (abides_modeOf token) fun _ => .pure

theorem abides_isOperator (token : AccessToken) : Keeps Abides (isOperator token) :=
  .bind (abides_modeOf token) fun _ => .pure

theorem abides_grantedMode (token : AccessToken) : Keeps Abides (grantedMode token) := by
  unfold grantedMode
  refine .bind .get fun service => .bind (abides_evaluate _ token) fun administers => ?_
  split
  · exact .pure
  · refine .bind (abides_evaluate _ token) fun operates => ?_
    split
    · exact .pure
    · exact .pure

theorem abides_updateAdministrationMode (token : AccessToken) (enabled : Bool) :
    Keeps Abides (updateAdministrationMode token enabled) := by
  have sets (mode : Option AdministrationMode) : Keeps Abides (do
      setMode token mode
      record (.administrationMode (← userId token) mode)
      return mode) :=
    .bind (fun _ => .ofSame rfl rfl rfl) fun _ => .bind (abides_userId token) fun _ =>
      .bind (abides_record _) fun _ => .pure
  unfold updateAdministrationMode
  split
  · exact .bind (abides_grantedMode token) sets
  · exact .bind .pure sets

theorem abides_hasSystemPermission (token : AccessToken) (permission : SystemPermission) :
    Keeps Abides (hasSystemPermission token permission) := by
  unfold hasSystemPermission
  refine .bind (abides_isAdministrator token) fun administers => ?_
  split
  · exact .pure
  refine .bind (abides_userId token) fun user => ?_
  split
  · exact .pure
  refine .bind .get fun service => ?_
  cases permission with
  | administration =>
    refine .bind (abides_evaluate _ token) fun holds => ?_
    split
    · exact .pure
    · exact abides_evaluate _ token
  | operator => exact abides_isOperator token
  | reservation => exact abides_evaluate _ token

/-! ### Runs -/

/-- Is the question one about users, or one that a policy answers? -/
def Question.isAboutUsers : Question → Bool
  | .userId _ | .userInformation _ | .userInformationById _ | .userInformationByPrincipalName _
  | .hasUser _ | .assuranceOf _ => true
  | .modeOf _ | .isAdministrator _ | .isOperator _ | .updateAdministrationMode ..
  | .hasSystemPermission .. | .checkPolicies => true
  | _ => false

/-- The call asks about users or clears the cache; or from now on other calls of collaborators
fail. -/
def Event.isAboutUsers : Event → Bool
  | .call (.ask question) => question.isAboutUsers
  | .call .clearCache | .outages _ => true
  | _ => false

theorem abides_of_question {question : Question} (about : question.isAboutUsers = true) :
    Keeps Abides question.action := by
  cases question with
  | userId token => exact .map (abides_userId token)
  | userInformation token => exact .map (abides_userInformation token)
  | userInformationById user => exact .map (abides_userInformationById user)
  | userInformationByPrincipalName name => exact .map (abides_userInformationByPrincipalName name)
  | hasUser user => exact .map (abides_hasUser user)
  | assuranceOf token => exact .map (abides_assuranceOf token)
  | modeOf token => exact .map (abides_modeOf token)
  | isAdministrator token => exact .map (abides_isAdministrator token)
  | isOperator token => exact .map (abides_isOperator token)
  | updateAdministrationMode token enabled =>
    exact .map (abides_updateAdministrationMode token enabled)
  | hasSystemPermission token permission => exact .map (abides_hasSystemPermission token permission)
  | checkPolicies => exact .map abides_checkPolicies
  | _ => exact absurd about Bool.false_ne_true

/-- **A call about users leaves the cache in agreement with the directory**, also when it fails. -/
theorem abides_of_event {event : Event} (about : event.isAboutUsers = true) :
    Abides service (event.next service) := by
  cases event with
  | outages failing => exact .ofSame rfl rfl rfl
  | graph objects => exact nomatch about
  | call made =>
    cases made with
    | ask question => exact (abides_of_question about).after service
    | clearCache => exact ⟨rfl, fun knows => .ofClear (KnowsUsers.filed knows)⟩
    | manage manager task => exact nomatch about
    | regroup change => exact nomatch about

variable {start first second : Service} {past onward : List Occurrence}

theorem abides_of_run (run : Run (·.event.isAboutUsers = true) start past service) :
    Abides start service := by
  induction run with
  | start => exact refl _
  | next event _ about ih => exact IsTrans.trans _ _ _ ih (abides_of_event about)

variable {user other : User}

/-- A token of root whose number is known is answered with the built-in user, any other one with the
record of the directory. -/
theorem Service.TellsOf.cases (tells : service.TellsOf token user) (knows : service.KnowsItsUsers) :
    (token ∈ service.cache.userIdOfToken ∧ service.directory.tokens[token]? = some rootUserId) ∧
        user = .root ∨
      ¬ (token ∈ service.cache.userIdOfToken ∧
        service.directory.tokens[token]? = some rootUserId) ∧
        service.directory.userOfToken token = .ok user := by
  unfold Service.TellsOf at tells
  cases cached : service.cache.userIdOfToken[token]? with
  | none =>
    rw [cached] at tells
    refine .inr ⟨fun both => ?_, tells⟩
    obtain ⟨id, found⟩ := mem_iff_exists.mp both.1
    exact nomatch cached.symm.trans found
  | some id =>
    rw [cached] at tells
    have belongs := KnowsUsers.numbers knows cached
    have known : token ∈ service.cache.userIdOfToken := mem_iff_exists.mpr ⟨id, cached⟩
    by_cases isRoot : id = rootUserId
    · exact .inl ⟨⟨known, isRoot ▸ belongs⟩, (if_pos isRoot).mp tells⟩
    · have held : service.directory.users[id]? = some user := (if_neg isRoot).mp tells
      refine .inr ⟨fun both => isRoot (Option.some.inj (belongs.symm.trans both.2)), ?_⟩
      unfold Directory.userOfToken
      rw [belongs]
      exact Directory.userById_eq_ok_iff.mpr held

/-- The built-in user is the one of the directory unless the directory shadows root. -/
theorem Directory.root_eq_iff {directory : Directory} (filed : directory.FilesUsers)
    (isRoot : directory.tokens[token]? = some rootUserId)
    (answer : directory.userOfToken token = .ok user) :
    User.root = user ↔ ¬ directory.ShadowsRoot token := by
  obtain ⟨belongs, held⟩ := Directory.userOfToken_eq_ok filed answer
  rw [Option.some.inj (belongs.symm.trans isRoot)] at held
  unfold ShadowsRoot
  rw [held, ne_eq, Option.some.injEq, and_iff_right isRoot, Decidable.not_not, eq_comm]

/-- **When two calls with one token tell the same.** Along any run of calls about users, with
whatever fails in between, two calls with one token that succeed tell of the same user, unless the
token is one of root and the directory has a record of its own for root: then they do exactly if the
number of the user was in the cache both times or neither time. -/
theorem userInformation_eq_iff {afterFirst afterSecond : Service}
    (filed : start.directory.FilesUsers) (empty : start.cache = .empty)
    (run : Run (·.event.isAboutUsers = true) start past first)
    (continued : Run (·.event.isAboutUsers = true) first onward second)
    (told : (userInformation token).run.run first = (.ok user, afterFirst))
    (toldAgain : (userInformation token).run.run second = (.ok other, afterSecond)) :
    user = other ↔ (start.directory.ShadowsRoot token →
      (token ∈ first.cache.userIdOfToken ↔ token ∈ second.cache.userIdOfToken)) := by
  have begins : start.KnowsItsUsers := by
    unfold Service.KnowsItsUsers
    rw [empty]
    have cleared : KnowsUsers Cache.empty.clear start.directory := .ofClear filed
    exact cleared
  have toFirst := abides_of_run run
  have toSecond : Abides start second := IsTrans.trans _ _ _ toFirst (abides_of_run continued)
  have tells := ((ensures_userInformation.of_ok told).2 (toFirst.knows begins)).cases
    (toFirst.knows begins)
  have tellsAgain := ((ensures_userInformation.of_ok toldAgain).2 (toSecond.knows begins)).cases
    (toSecond.knows begins)
  rw [toFirst.directory] at tells
  rw [toSecond.directory] at tellsAgain
  rcases tells with ⟨⟨known, isRoot⟩, rfl⟩ | ⟨elsewhere, answer⟩
  · rcases tellsAgain with ⟨⟨knownAgain, -⟩, rfl⟩ | ⟨elsewhere, answer⟩
    · exact iff_of_true rfl fun _ => iff_of_true known knownAgain
    · have unknown : token ∉ second.cache.userIdOfToken := fun known => elsewhere ⟨known, isRoot⟩
      rw [Directory.root_eq_iff filed isRoot answer]
      simp only [known, unknown, iff_false, not_true, imp_false]
  · rcases tellsAgain with ⟨⟨known, isRoot⟩, rfl⟩ | ⟨elsewhereAgain, answerAgain⟩
    · have unknown : token ∉ first.cache.userIdOfToken := fun known => elsewhere ⟨known, isRoot⟩
      rw [eq_comm, Directory.root_eq_iff filed isRoot answer]
      simp only [known, unknown, iff_true, imp_false]
    · obtain rfl := Except.ok.inj (answer.symm.trans answerAgain)
      exact iff_of_true rfl fun shadows =>
        iff_of_false (fun known => elsewhere ⟨known, shadows.1⟩)
          fun known => elsewhereAgain ⟨known, shadows.1⟩

/-- The directory has a record of its own for root, and tokens of two users. -/
def Service.shadowing : Service := { Service.sample with
  directory := Service.sample.directory
    |>.addUser { id := rootUserId, firstName := some "Ada" }
    |>.addToken "root" rootUserId
    |>.addToken "one" "1" }

/-- Both tokens are used. -/
def warmingEvents : List Event :=
  [.call (.ask (.userInformation "one")), .call (.ask (.userId "root"))]

/-- The state after that. -/
def Service.warmed : Service := (replay [] .shadowing warmingEvents).2

theorem Service.filesUsers_shadowing : Service.shadowing.directory.FilesUsers :=
  (Directory.FilesUsers.empty.addUser { id := "1" }).addUser
    { id := rootUserId, firstName := some "Ada" }

/-- The token of the other user is answered alike, that of root is not. -/
theorem userInformation_eq_iff_warmed :
    (∃ user other after last, (userInformation "one").run.run .shadowing = (.ok user, after) ∧
      (userInformation "one").run.run .warmed = (.ok other, last) ∧ user = other) ∧
    ∃ user other after last, (userInformation "root").run.run .shadowing = (.ok user, after) ∧
      (userInformation "root").run.run .warmed = (.ok other, last) ∧ user ≠ other := by
  have continued : Run (·.event.isAboutUsers = true) .shadowing _ .warmed :=
    .ofEvents (by decide +kernel)
  have answers (token : AccessToken) (service : Service)
      (answered : ((userInformation token).run.run service).1.toOption.isSome = true) :
      ∃ user after, (userInformation token).run.run service = (.ok user, after) := by
    obtain ⟨user, answer⟩ := Option.isSome_iff_exists.mp answered
    exact ⟨user, _, Prod.ext (ok_of_toOption answer) rfl⟩
  have shadows : Service.shadowing.directory.ShadowsRoot "root" := by
    unfold Directory.ShadowsRoot
    decide +kernel
  have noRoot : ¬ Service.shadowing.directory.ShadowsRoot "one" := fun shadows =>
    absurd shadows.1 (by decide +kernel)
  have unknown : "root" ∉ Service.shadowing.cache.userIdOfToken := by decide +kernel
  have known : "root" ∈ Service.warmed.cache.userIdOfToken := by decide +kernel
  constructor
  · obtain ⟨user, after, told⟩ := answers "one" .shadowing (by decide +kernel)
    obtain ⟨other, last, toldAgain⟩ := answers "one" .warmed (by decide +kernel)
    refine ⟨user, other, after, last, told, toldAgain, ?_⟩
    exact (userInformation_eq_iff Service.filesUsers_shadowing rfl .start continued told
      toldAgain).mpr fun shadows => absurd shadows noRoot
  · obtain ⟨user, after, told⟩ := answers "root" .shadowing (by decide +kernel)
    obtain ⟨other, last, toldAgain⟩ := answers "root" .warmed (by decide +kernel)
    refine ⟨user, other, after, last, told, toldAgain, fun same => unknown ?_⟩
    exact ((userInformation_eq_iff Service.filesUsers_shadowing rfl .start continued told
      toldAgain).mp same shadows).mpr known

/-- Root is called Ada before the token is known, and by the built-in name after that. -/
theorem root_renamed : (∃ past, Run (·.event.isAboutUsers = true) .shadowing past .warmed) ∧
    ((userInformation "root").run.run .shadowing).1.toOption =
      some { id := rootUserId, firstName := some "Ada" } ∧
    ((userInformation "root").run.run .warmed).1.toOption = some .root ∧
    ({ id := rootUserId, firstName := some "Ada" } : User) ≠ .root :=
  ⟨⟨_, .ofEvents (by decide +kernel)⟩, by decide +kernel⟩

end BookingAccess
