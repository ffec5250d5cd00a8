import CodeIndex.Outline
import CodeIndex.Text.Letter

/-!
# Technologies

A technology is in use when the source of an import contains its marker, in letters of either case.
-/

namespace CodeIndex.Technology

/-- Markers of technologies, each with the name under which the technology is listed. -/
def markers : List (Text × Text) :=
  [("flask", "Flask"), ("fastapi", "FastAPI"), ("django", "Django"),
   ("rest_framework", "Django REST Framework"), ("express", "Express"), ("@nestjs", "NestJS"),
   ("next", "Next.js"), ("react", "React"), ("vue", "Vue"), ("@angular", "Angular"),
   ("sqlalchemy", "SQLAlchemy"), ("mongoose", "MongoDB/Mongoose"), ("prisma", "Prisma"),
   ("typeorm", "TypeORM"), ("sequelize", "Sequelize"), ("celery", "Celery"),
   ("pydantic", "Pydantic"), ("axios", "Axios"), ("graphql", "GraphQL")].map
    fun (marker, label) => (marker.toList, label.toList)

/-- The names of the technologies that the source of an import shows. -/
def ofSource (source : Text) : List Text :=
  (markers.filter fun m => Text.contains m.1 (Text.lower source)).map (·.2)

/-- The names of the technologies in a file's imports, in code point order. -/
def ofImports (imports : List ImportDecl) : List Text :=
  Text.sortedSet (imports.flatMap fun i => ofSource i.source)

end CodeIndex.Technology
