import ScopedQuery.Catalog.Basic

set_option autoImplicit false

namespace ScopedQuery.Catalog

def userOf (c : Catalog) (user : String) : User := (c.users.find? user).getD .blank

def withUsers (c : Catalog) (users : Assoc User) : Catalog := { c with users := users }

variable (c : Catalog) (entity user other : String)

theorem access?_eq : c.access? entity user = (c.userOf user).access.find? entity := by
  unfold access? userOf
  cases c.users.find? user with
  | none => rfl
  | some u => rfl

theorem sharedWith_eq :
    c.sharedWith entity user = ((c.userOf user).shared.find? entity).getD [] := by
  unfold sharedWith userOf
  cases c.users.find? user with
  | none => rfl
  | some u => rfl

theorem userPermissions_eq : c.userPermissions user = (c.userOf user).permissions := by
  unfold userPermissions userOf
  cases c.users.find? user with
  | none => rfl
  | some u => rfl

theorem userOf_alterUser (f : User → User) : (c.alterUser user f).userOf other =
    if other = user then f (c.userOf user) else c.userOf other := by
  unfold userOf alterUser
  dsimp only
  rw [Assoc.alter, Assoc.find?_put]
  split <;> rfl

variable {c entity user other} {f : User → User}

theorem read_alterUser {α : Type} (part : User → α) (keep : ∀ u, part (f u) = part u) :
    part ((c.alterUser user f).userOf other) = part (c.userOf other) := by
  rw [userOf_alterUser]
  split
  · next same => rw [keep, same]
  · rfl

theorem access?_alterUser (keep : ∀ u, (f u).access = u.access) :
    (c.alterUser user f).access? entity other = c.access? entity other := by
  rw [access?_eq, access?_eq, read_alterUser User.access keep]

theorem userPermissions_alterUser (keep : ∀ u, (f u).permissions = u.permissions) :
    (c.alterUser user f).userPermissions other = c.userPermissions other := by
  rw [userPermissions_eq, userPermissions_eq, read_alterUser User.permissions keep]

theorem sharedWith_alterUser (keep : ∀ u, (f u).shared = u.shared) :
    (c.alterUser user f).sharedWith entity other = c.sharedWith entity other := by
  rw [sharedWith_eq, sharedWith_eq, read_alterUser User.shared keep]

theorem sharedWith_share (name : String) :
    (c.share entity user name).sharedWith entity user = c.sharedWith entity user ++ [name] := by
  unfold share
  rw [sharedWith_eq, sharedWith_eq, userOf_alterUser, if_pos rfl, Assoc.alter, Assoc.find?_put,
    if_pos rfl, Option.getD_some]

end ScopedQuery.Catalog
