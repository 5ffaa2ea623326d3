/-
**Questions only read.**

Whoever asks the service something, about users, groups, policies or access, changes no grant and
leaves the store as it is: a question keeps whatever reading keeps. The lemmas follow the modules in
which the questions stand.
-/

import BookingAccess.Proofs.Service.Steady

namespace BookingAccess.Service

variable {relation : Service → Service → Prop} [KeptByReading relation]

/-! ### Users -/

theorem keeps_userInformationById (user : UserId) :
    Keeps relation (userInformationById user) := by
  unfold userInformationById
  split
  · exact .pure
  · refine .bind ?_ fun found => ?_
    · refine KeptByReading.remembered (fun _ _ => ⟨rfl, rfl, rfl, rfl⟩) ?_
      refine .bind (.outcome (KeptByReading.directoryRead _ _)) fun outcome => ?_
      split
      · exact .pure
      · exact .pure
      · exact .throw
    · split
      · exact .pure
      · exact .throw

theorem keeps_userInformation (token : AccessToken) : Keeps relation (userInformation token) := by
  unfold userInformation
  refine .bind .get fun service => ?_
  split
  · exact keeps_userInformationById _
  · refine .bind (.ofDirectory (KeptByReading.directoryRead _ _)) fun user => ?_
    exact .bind (KeptByReading.modifyCache fun _ => ⟨rfl, rfl, rfl, rfl⟩) fun _ => .pure

theorem keeps_userId (token : AccessToken) : Keeps relation (userId token) := by
  unfold userId
  refine .bind .get fun service => ?_
  split
  · exact .pure
  · exact .bind (keeps_userInformation token) fun _ => .pure

theorem keeps_hasUser (user : UserId) : Keeps relation (hasUser user) := by
  unfold hasUser
  refine .tryCatch (.bind (keeps_userInformationById user) fun _ => .pure) fun fault => ?_
  split
  · exact .pure
  · exact .throw

theorem keeps_userInformationByPrincipalName (name : String) :
    Keeps relation (userInformationByPrincipalName name) := by
  unfold userInformationByPrincipalName
  refine .bind ?_ fun found => ?_
  · refine KeptByReading.remembered (fun _ _ => ⟨rfl, rfl, rfl, rfl⟩) ?_
    refine .bind (.outcome (KeptByReading.directoryRead _ _)) fun outcome => ?_
    split
    · exact .pure
    · exact .pure
    · exact .throw
  · split
    · exact keeps_userInformationById _
    · exact .throw

theorem keeps_assuranceOf (token : AccessToken) : Keeps relation (assuranceOf token) := by
  unfold assuranceOf
  refine .bind ?_ fun found => .pure
  refine KeptByReading.remembered (fun _ _ => ⟨rfl, rfl, rfl, rfl⟩) ?_
  refine .bind (.outcome (KeptByReading.directoryRead _ _)) fun outcome => ?_
  split
  · exact .pure
  · exact .pure
  · exact .pure
  · exact .throw

/-! ### Groups -/

theorem keeps_group (group : GroupId) : Keeps relation (Service.group group) := by
  unfold Service.group
  split
  · exact .pure
  · refine .bind ?_ fun found => ?_
    · refine KeptByReading.remembered (fun _ _ => ⟨rfl, rfl, rfl, rfl⟩) ?_
      refine .bind (.outcome (KeptByReading.directoryRead _ _)) fun outcome => ?_
      split
      · exact .pure
      · exact .pure
      · exact .throw
    · split
      · exact .pure
      · exact .throw

theorem keeps_groupIdByName (name : String) : Keeps relation (groupIdByName name) := by
  unfold groupIdByName
  split
  · exact .pure
  · refine .bind .get fun service => ?_
    split
    · exact .pure
    · refine .bind (.ofDirectory (KeptByReading.directoryRead _ _)) fun group => ?_
      exact .bind (KeptByReading.modifyCache fun _ => ⟨rfl, rfl, rfl, rfl⟩) fun _ => .pure

theorem keeps_usersOf (identity : Identity) : Keeps relation (usersOf identity) := by
  cases identity with
  | user user => exact .pure
  | group group => exact KeptByReading.groupMembers group

theorem keeps_listGroups (ids : Option (List GroupId)) (kinds : Option (List GroupKind)) :
    Keeps relation (listGroups ids kinds) := by
  unfold listGroups
  exact .bind (.ofDirectory (KeptByReading.directoryRead _ _)) fun _ => .pure

/-! ### Policies and administration mode -/

theorem keeps_policyGroup (name : String) : Keeps relation (policyGroup name) := by
  unfold policyGroup
  refine .bind ?_ fun found => ?_
  · refine .tryCatch (.map (keeps_groupIdByName name)) fun fault => ?_
    split
    · exact .pure
    · exact .throw
  · split
    · exact KeptByReading.groupMembers _
    · exact .bind (KeptByReading.record _) fun _ => .pure

theorem keeps_policyGroups (names : List String) : Keeps relation (policyGroups names) := by
  induction names with
  | nil => exact .pure
  | cons name names ih =>
    unfold policyGroups
    exact .bind (keeps_policyGroup name) fun _ => .bind ih fun _ => .pure

theorem keeps_evaluateFor (policy : Policy) (user : User) (assurance : Assurance) :
    Keeps relation (evaluateFor policy user assurance) := by
  unfold evaluateFor
  refine .bind (keeps_policyGroups _) fun groups => ?_
  split
  · exact .pure
  · exact .throw

theorem keeps_evaluate (policy : Policy) (token : AccessToken) :
    Keeps relation (evaluate policy token) := by
  unfold evaluate
  split
  · exact .pure
  · refine .bind (keeps_userInformation token) fun user => ?_
    exact .bind (keeps_assuranceOf token) fun assurance => keeps_evaluateFor policy user assurance

theorem keeps_checkPolicies : Keeps relation checkPolicies := by
  unfold checkPolicies
  refine .bind .get fun service => ?_
  refine .bind (keeps_evaluateFor _ _ _) fun administrator => ?_
  refine .bind (keeps_evaluateFor _ _ _) fun operator => ?_
  exact .bind (keeps_evaluateFor _ _ _) fun reservation => .pure

theorem keeps_modeOf (token : AccessToken) : Keeps relation (modeOf token) := by
  unfold modeOf
  exact .bind .get fun _ => .pure

theorem keeps_isAdministrator (token : AccessToken) : Keeps relation (isAdministrator token) := by
  unfold isAdministrator
  exact .bind (keeps_modeOf token) fun _ => .pure

theorem keeps_isOperator (token : AccessToken) : Keeps relation (isOperator token) := by
  unfold isOperator
  exact .bind (keeps_modeOf token) fun _ => .pure

theorem keeps_grantedMode (token : AccessToken) : Keeps relation (grantedMode token) := by
  unfold grantedMode
  refine .bind .get fun service => ?_
  refine .bind (keeps_evaluate _ _) fun administrator => ?_
  split
  · exact .pure
  · refine .bind (keeps_evaluate _ _) fun operator => ?_
    split
    · exact .pure
    · exact .pure

theorem keeps_updateAdministrationMode [KeptBySwitching relation] (token : AccessToken)
    (enabled : Bool) : Keeps relation (updateAdministrationMode token enabled) := by
  have rest (mode : Option AdministrationMode) : Keeps relation (do
      setMode token mode
      record (.administrationMode (← userId token) mode)
      return mode) := by
    refine .bind (KeptBySwitching.setMode token mode) fun _ => ?_
    refine .bind (keeps_userId token) fun user => ?_
    exact .bind (KeptByReading.record _) fun _ => .pure
  unfold updateAdministrationMode
  split
  · exact .bind (keeps_grantedMode token) rest
  · exact .bind .pure rest

theorem keeps_hasSystemPermission (token : AccessToken) (permission : SystemPermission) :
    Keeps relation (hasSystemPermission token permission) := by
  unfold hasSystemPermission
  refine .bind (keeps_isAdministrator token) fun administrator => ?_
  split
  · exact .pure
  · refine .bind (keeps_userId token) fun user => ?_
    split
    · exact .pure
    · refine .bind .get fun service => ?_
      split
      · refine .bind (keeps_evaluate _ _) fun granted => ?_
        split
        · exact .pure
        · exact keeps_evaluate _ _
      · exact keeps_isOperator token
      · exact keeps_evaluate _ _

/-! ### Access to objects -/

theorem keeps_userProjection (user : UserId) : Keeps relation (userProjection user) := by
  unfold userProjection
  exact .bind (KeptByReading.loadedUserProjection user) fun _ => .pure

theorem keeps_objectProjection (object : ObjectRef) : Keeps relation (objectProjection object) := by
  unfold objectProjection
  exact .bind (KeptByReading.loadedObjectProjection object) fun _ => .pure

theorem keeps_hasUserRole (user : UserId) (object : ObjectRef) (role : Role) :
    Keeps relation (hasUserRole user object role) := by
  unfold hasUserRole
  split
  · exact .pure
  · exact .bind (keeps_userProjection user) fun _ => .pure

theorem keeps_hasUserPermission (user : UserId) (object : ObjectRef) (permission : Permission) :
    Keeps relation (hasUserPermission user object permission) := by
  unfold hasUserPermission
  split
  · exact .pure
  · exact .bind (keeps_userProjection user) fun _ => .pure

theorem keeps_modeSuffices (token : AccessToken) (reading : Bool) :
    Keeps relation (modeSuffices token reading) := by
  unfold modeSuffices
  refine .bind (keeps_isAdministrator token) fun administrator => ?_
  split
  · exact .pure
  · split
    · exact keeps_isOperator token
    · exact .pure

theorem keeps_hasRole (token : AccessToken) (object : ObjectRef) (role : Role) :
    Keeps relation (hasRole token object role) := by
  unfold hasRole
  refine .bind (keeps_modeSuffices token _) fun settled => ?_
  split
  · exact .pure
  · exact .bind (keeps_userId token) fun user => keeps_hasUserRole user object role

theorem keeps_hasPermission (token : AccessToken) (object : ObjectRef) (permission : Permission) :
    Keeps relation (hasPermission token object permission) := by
  unfold hasPermission
  refine .bind (keeps_modeSuffices token _) fun settled => ?_
  split
  · exact .pure
  · exact .bind (keeps_userId token) fun user => keeps_hasUserPermission user object permission

theorem keeps_objectPermissions (token : AccessToken) (object : ObjectRef) :
    Keeps relation (objectPermissions token object) := by
  unfold objectPermissions
  refine .bind .get fun service => ?_
  refine .bind (keeps_isAdministrator token) fun administrator => ?_
  split
  · exact .pure
  · refine .bind (keeps_userId token) fun user => ?_
    split
    · exact .pure
    · refine .bind (keeps_userProjection user) fun projection => ?_
      refine .bind (keeps_isOperator token) fun operator => ?_
      split
      · exact .pure
      · exact .pure

theorem keeps_objectsWithRole (token : AccessToken) (objectClass : ObjectClass) (role : Role) :
    Keeps relation (objectsWithRole token objectClass role) := by
  unfold objectsWithRole
  refine .bind (keeps_modeSuffices token _) fun settled => ?_
  split
  · exact .pure
  · refine .bind (keeps_userId token) fun user => ?_
    split
    · exact .pure
    · exact .bind (keeps_userProjection user) fun _ => .pure

theorem keeps_objectsWithPermission (token : AccessToken) (objectClass : ObjectClass)
    (permission : Permission) :
    Keeps relation (objectsWithPermission token objectClass permission) := by
  unfold objectsWithPermission
  refine .bind (keeps_modeSuffices token _) fun settled => ?_
  split
  · exact .pure
  · refine .bind (keeps_userId token) fun user => ?_
    split
    · exact .pure
    · exact .bind (keeps_userProjection user) fun _ => .pure

theorem keeps_userIdsWithRole (object : ObjectRef) (role : Role) :
    Keeps relation (userIdsWithRole object role) := by
  unfold userIdsWithRole
  exact .bind (keeps_objectProjection object) fun _ => .pure

theorem keeps_knownUsers (users : List UserId) : Keeps relation (knownUsers users) := by
  induction users with
  | nil => exact .pure
  | cons user users ih =>
    unfold knownUsers
    refine .bind ?_ fun found => .bind ih fun _ => .pure
    refine .tryCatch (.map (keeps_userInformationById user)) fun fault => ?_
    split
    · exact .pure
    · exact .throw

theorem keeps_usersWithRole (object : ObjectRef) (role : Role) :
    Keeps relation (usersWithRole object role) := by
  unfold usersWithRole
  exact .bind (keeps_userIdsWithRole object role) fun _ => keeps_knownUsers _

end BookingAccess.Service
