/-
  File:      BlogDemo/Lambda/Signup.lean
  Subject:   THE SIGN-UP HANDLERS OF THE LAMBDA BACKEND (backend/functions/auth/signup, confirmEmail and
             resendEmail): each takes its fields from the body, sends one command to Cognito and
             answers by name the errors it knows.

  The three have one shape, `emailHandler`; a member is its fields, its command, its message and the
  table of its errors.
-/
import BlogDemo.Lambda.Auth

namespace Signup

open Js Atomic
open Auth (Event Response error)
open Lambda (HTTPError badRequest internalServerError required)

/-- SignUp, ConfirmSignUp and ResendConfirmationCode. -/
inductive Command where
  | signUp (username password email : Json)
  | confirmSignUp (username confirmationCode : Json)
  | resendConfirmationCode (username : Json)

/-- The handlers read nothing of an answer. -/
abbrev Answer (_ : Command) := Except Error Unit

abbrev Handler := Prog Command Answer Response

/-- An `instanceof` branch: the exception, what it is answered and the code. -/
structure Branch where
  exception : String
  answer : HTTPError
  code : String

/-- The `catch` block: the first branch whose exception it is, or a 500. -/
def caught (branches : List Branch) (otherwise : String) (err : Error) : Response :=
  match branches.find? (·.exception = err.name) with
  | some b => error b.answer b.code
  | none => error (internalServerError err.message) otherwise

/-- The shape of the three handlers. -/
def emailHandler (fields : List String) (badCode : String) (command : (String → Json) → Command)
    (message : String) (handle : Error → Response) (event : Event) : Handler :=
  Prog.catching (ε := Error) (do
    let data ← parse (event.body.getD (.json (.obj [])))
    let data ← destructure "username" data
    if fields.any fun f => !truthy (data.get? f) then
      return error (badRequest (required fields)) badCode
    let _ ← ExceptT.mk (Prog.send (command fun f => (data.get? f).getD .null))
    return ⟨200, none, .obj [("message", .str message)]⟩)
    handle

/-- What signup.ts knows. -/
def signupBranches : List Branch :=
  [⟨"UsernameExistsException", badRequest "Username already exists",
      "ERR_SIGNUP_USERNAME_EXISTS"⟩,
    ⟨"InvalidPasswordException", badRequest "Password does not meet complexity requirements",
      "ERR_SIGNUP_INVALID_PASSWORD"⟩,
    ⟨"InvalidParameterException", badRequest "Invalid signup parameters",
      "ERR_SIGNUP_INVALID_PARAMETER"⟩,
    ⟨"LimitExceededException", badRequest "Signup attempt limit exceeded. Try again later.",
      "ERR_SIGNUP_LIMIT_EXCEEDED"⟩]

/-- `handler` of signup.ts -/
def signup : Event → Handler :=
  emailHandler ["username", "password", "email"] "ERR_SIGNUP_BAD_REQUEST"
    (fun field => .signUp (field "username") (field "password") (field "email"))
    "Signup successful, please check your email for confirmation."
    (caught signupBranches "ERR_SIGNUP_INTERNAL_SERVER_ERROR")

/-- What confirmEmail.ts knows. -/
def confirmEmailBranches : List Branch :=
  [⟨"CodeMismatchException", badRequest "Invalid confirmation code",
      "ERR_CONFIRM_EMAIL_CODE_MISMATCH"⟩,
    ⟨"ExpiredCodeException", badRequest "Confirmation code has expired",
      "ERR_CONFIRM_EMAIL_EXPIRED_CODE"⟩,
    ⟨"UserNotFoundException", badRequest "User does not exist", "ERR_CONFIRM_EMAIL_USER_NOT_FOUND"⟩,
    ⟨"NotAuthorizedException", badRequest "User is already confirmed",
      "ERR_CONFIRM_EMAIL_ALREADY_CONFIRMED"⟩,
    ⟨"TooManyFailedAttemptsException", badRequest "Too many failed confirmation attempts",
      "ERR_CONFIRM_EMAIL_TOO_MANY_ATTEMPTS"⟩]

/-- `handler` of confirmEmail.ts -/
def confirmEmail : Event → Handler :=
  emailHandler ["username", "code"] "ERR_CONFIRM_EMAIL_BAD_REQUEST"
    (fun field => .confirmSignUp (field "username") (field "code"))
    "Email confirmation successful"
    (caught confirmEmailBranches "ERR_CONFIRM_EMAIL_INTERNAL_SERVER_ERROR")

/-- What resendEmail.ts knows. -/
def resendEmailBranches : List Branch :=
  [⟨"UserNotFoundException", badRequest "User does not exist", "ERR_RESEND_EMAIL_USER_NOT_FOUND"⟩,
    ⟨"InvalidParameterException", badRequest "Invalid request parameter",
      "ERR_RESEND_EMAIL_INVALID_PARAMETER"⟩,
    ⟨"LimitExceededException", badRequest "Attempt limit exceeded. Please try again later.",
      "ERR_RESEND_EMAIL_LIMIT_EXCEEDED"⟩,
    ⟨"NotAuthorizedException", badRequest "User is already confirmed",
      "ERR_RESEND_EMAIL_ALREADY_CONFIRMED"⟩]

/-- `handler` of resendEmail.ts -/
def resendEmail : Event → Handler :=
  emailHandler ["username"] "ERR_RESEND_EMAIL_BAD_REQUEST"
    (fun field => .resendConfirmationCode (field "username"))
    "Successfully resent confirmation code"
    (caught resendEmailBranches "ERR_RESEND_EMAIL_INTERNAL_SERVER_ERROR")

end Signup
